import KCut.Text.Reader

/-!
# KCut.Config.Yaml.Word

Words that stand for numbers, truth values and null.

Numbers are natural: in decimal without leading zeros, or in another base after
its mark.
-/

namespace KCut.Config.Yaml.Word

def dropPlus : List Char → List Char
  | '+' :: rest => rest
  | cs => cs

/-- Whether digits start with a zero that they do not need. -/
def hasLeadingZero : List Char → Bool
  | '0' :: c :: rest => (c :: rest).all Char.isDigit
  | _ => false

/-- A natural number in decimal, hexadecimal, octal or binary digits. -/
def natural? (word : String) : Option Nat :=
  match dropPlus word.toList with
  | '0' :: 'x' :: digits => Text.number? 16 digits
  | '0' :: 'o' :: digits => Text.number? 8 digits
  | '0' :: 'b' :: digits => Text.number? 2 digits
  | digits => if hasLeadingZero digits then none else Text.number? 10 digits

def truth? (word : String) : Option Bool :=
  if ["true", "True", "TRUE"].contains word then some true
  else if ["false", "False", "FALSE"].contains word then some false
  else none

def isNull (word : String) : Bool :=
  ["~", "null", "Null", "NULL"].contains word

end KCut.Config.Yaml.Word
