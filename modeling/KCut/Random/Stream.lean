import KCut.Fault
import KCut.Random.Keystream

/-!
# KCut.Random.Stream

Streams of random words and the draws made from them.

Design points:

* A stream is an infinite sequence of 32-bit words and a position in it. A run
  is seeded with a keystream, but nothing else here depends on where the words
  come from, so a law can speak of every stream.
* Every draw takes whole words in order and skips none; the position therefore
  counts the words drawn so far.
* `range` scales a word to the range by a multiplication and looks at a second
  word only where the low half of the product may still carry.
-/

namespace KCut.Random

/-- An infinite sequence of words, read from `position` on. -/
structure Stream where
  /-- The words of the sequence. -/
  words : Nat → UInt32
  position : Nat

namespace Stream

/-- The stream of a seed, from its first word. -/
def ofSeed (seed : UInt64) : Stream :=
  let key := Key.ofSeed seed
  ⟨keystream key, 0⟩

def skip (s : Stream) (n : Nat) : Stream :=
  { s with position := s.position + n }

def next32 (s : Stream) : UInt32 × Stream :=
  (s.words s.position, s.skip 1)

/-- Draws two words; the first one is the low half. -/
def next64 (s : Stream) : UInt64 × Stream :=
  let low := s.words s.position
  let high := s.words (s.position + 1)
  ((high.toUInt64 <<< 32) ||| low.toUInt64, s.skip 2)

/-- A new stream, seeded with 64 bits of this one. -/
def split (s : Stream) : Stream × Stream :=
  let (seed, s) := s.next64
  (ofSeed seed, s)

/-- Draws a number of 32 or of 64 bits. -/
def nextBits (s : Stream) (wide : Bool) : Nat × Stream :=
  if wide then
    let (x, s) := s.next64
    (x.toNat, s)
  else
    let (x, s) := s.next32
    (x.toNat, s)

/-- The number of values of a word of 32 or of 64 bits. -/
def span (wide : Bool) : Nat :=
  if wide then 0x1_0000_0000_0000_0000 else 0x1_0000_0000

/-- Draws a number from `0, …, size - 1` with draws of 32 or of 64 bits. -/
def below (s : Stream) (wide : Bool) (size : Nat) : Nat × Stream :=
  let (x, s) := s.nextBits wide
  let scaled := x * size
  let result := scaled / span wide
  let rest := scaled % span wide
  if span wide - size < rest then
    let (y, s) := s.nextBits wide
    let carry := y * size / span wide
    (if span wide ≤ rest + carry then result + 1 else result, s)
  else
    (result, s)

/-- Draws a number from `low, …, high - 1`. Ranges that end within 32 bits are
drawn with 32-bit words. -/
def range (s : Stream) (low high : Nat) : Except Fault (Nat × Stream) :=
  if low < high then
    let (x, s) := s.below (0x1_0000_0000 ≤ high) (high - low)
    .ok (low + x, s)
  else
    .error (.emptyRange low high)

@[simp] theorem position_skip (s : Stream) (n : Nat) :
    (s.skip n).position = s.position + n := rfl

@[simp] theorem words_skip (s : Stream) (n : Nat) : (s.skip n).words = s.words := rfl

@[simp] theorem position_next32 (s : Stream) : s.next32.2.position = s.position + 1 := rfl

@[simp] theorem position_next64 (s : Stream) : s.next64.2.position = s.position + 2 := rfl

end Stream

end KCut.Random
