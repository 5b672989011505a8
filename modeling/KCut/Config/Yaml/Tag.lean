import KCut.Text.Reader

/-!
# KCut.Config.Yaml.Tag

Tags of nodes.

Design points:

* A tag is a sequence of octets. Written in a text, an octet may be escaped by a
  percent sign and two digits; escaped octets come in runs, as long as the first
  octet of a UTF-8 sequence says.
* An octet of zero ends a tag, and what was written after it does not count.
-/

namespace KCut.Config.Yaml

structure Tag where
  octets : List UInt8
deriving Repr, DecidableEq

namespace Tag

/-- The tag with the octets of a text. -/
def ofString (s : String) : Tag :=
  ⟨s.toUTF8.toList⟩

/-- Under this tag a word has to be null. -/
def null : Tag := ofString "tag:yaml.org,2002:null"

/-- Under this tag lines of text are read as a number. -/
def int : Tag := ofString "tag:yaml.org,2002:int"

/-- Under this tag lines of text are read as a truth value. -/
def bool : Tag := ofString "tag:yaml.org,2002:bool"

/-- The tag of a scalar that is to be read as if it had none. -/
def nonSpecific : Tag := ofString "!"

/-- A tag followed by the rest of a longer one. -/
def append (a b : Tag) : Tag :=
  ⟨a.octets ++ b.octets⟩

/-- The number of octets after the first octet of a UTF-8 sequence. -/
def continuations? (octet : Nat) : Option Nat :=
  if octet < 0x80 then some 0
  else if octet < 0xc0 then none
  else if octet < 0xe0 then some 1
  else if octet < 0xf0 then some 2
  else if octet < 0xf8 then some 3
  else none

def isContinuation (octet : Nat) : Bool :=
  0x80 ≤ octet && octet < 0xc0

/-- The octets that characters stand for, of which the first `expected` go on
with a sequence and have to be escaped. -/
def unescape? : (expected : Nat) → List Char → Option (List UInt8)
  | 0, [] => some []
  | _ + 1, [] => none
  | 0, '%' :: high :: low :: rest => do
      let octet ← Text.number? 16 [high, low]
      return octet.toUInt8 :: (← unescape? (← continuations? octet) rest)
  | expected + 1, '%' :: high :: low :: rest => do
      let octet ← Text.number? 16 [high, low]
      if isContinuation octet then
        return octet.toUInt8 :: (← unescape? expected rest)
      else none
  | expected, c :: rest => do
      if expected = 0 ∧ c ≠ '%' then return c.toNat.toUInt8 :: (← unescape? 0 rest)
      else none

/-- The tag that ASCII characters are written for. -/
def ofChars? (cs : List Char) : Option Tag := do
  return ⟨(← unescape? 0 cs).takeWhile (· ≠ 0)⟩

end Tag

end KCut.Config.Yaml
