/-!
# KCut.Random.Keystream

The ChaCha keystream with eight rounds, and the key that a seed stands for.

Design points:

* A keystream is a function from positions to 32-bit words. Word `i` is word
  `i % 16` of the block with counter `i / 16`, so a position can be reached
  without producing what lies before it.
* A block mixes a state of sixteen words: four constants, the eight words of
  the key, the 64-bit block counter and a stream number of zero.
-/

namespace KCut.Random

/-- The sixteen words of a cipher state or of an output block. -/
abbrev Block := Vector UInt32 16

/-- The eight words of a key. -/
abbrev Key := Vector UInt32 8

/-- Rotates a word to the left by `n` places, `0 < n < 32`. -/
def rotateLeft (x n : UInt32) : UInt32 :=
  (x <<< n) ||| (x >>> (32 - n))

/-- Mixes four words of a state. -/
def quarterRound (s : Block) (a b c d : Fin 16) : Block :=
  let s := s.set a (s[a] + s[b])
  let s := s.set d (rotateLeft (s[d] ^^^ s[a]) 16)
  let s := s.set c (s[c] + s[d])
  let s := s.set b (rotateLeft (s[b] ^^^ s[c]) 12)
  let s := s.set a (s[a] + s[b])
  let s := s.set d (rotateLeft (s[d] ^^^ s[a]) 8)
  let s := s.set c (s[c] + s[d])
  s.set b (rotateLeft (s[b] ^^^ s[c]) 7)

/-- A round over the columns of a state, then one over its diagonals. -/
def doubleRound (s : Block) : Block :=
  let s := quarterRound s 0 4 8 12
  let s := quarterRound s 1 5 9 13
  let s := quarterRound s 2 6 10 14
  let s := quarterRound s 3 7 11 15
  let s := quarterRound s 0 5 10 15
  let s := quarterRound s 1 6 11 12
  let s := quarterRound s 2 7 8 13
  quarterRound s 3 4 9 14

/-- The state that a block is mixed from. -/
def initialState (key : Key) (counter : UInt64) : Block :=
  #v[0x61707865, 0x3320646e, 0x79622d32, 0x6b206574,
    key[0], key[1], key[2], key[3], key[4], key[5], key[6], key[7],
    counter.toUInt32, (counter >>> 32).toUInt32, 0, 0]

/-- The keystream block with the given counter: eight rounds over the initial
state, to which that state is added again. -/
def block (key : Key) (counter : UInt64) : Block :=
  let start := initialState key counter
  let mixed := doubleRound (doubleRound (doubleRound (doubleRound start)))
  mixed.zipWith (· + ·) start

/-- Word `i` of the keystream of a key. -/
def keystream (key : Key) (i : Nat) : UInt32 :=
  (block key (UInt64.ofNat (i / 16))).toArray.getD (i % 16) 0

/-- One step of the generator that expands a seed. -/
def advanceSeed (s : UInt64) : UInt64 :=
  s * 6364136223846793005 + 11634580027462260723

/-- The word that the expanding generator gives in a state. -/
def seedWord (s : UInt64) : UInt32 :=
  let x := (((s >>> 18) ^^^ s) >>> 27).toUInt32
  let n := (s >>> 59).toUInt32
  (x >>> n) ||| (x <<< ((32 - n) % 32))

/-- The key that a seed stands for: eight words of the expanding generator. -/
def Key.ofSeed (seed : UInt64) : Key :=
  Vector.ofFn fun i => seedWord (Nat.repeat advanceSeed (i.val + 1) seed)

end KCut.Random
