/-!
# KCut.Text.Grouped

Natural numbers in decimal, with the digits in groups of three.
-/

namespace KCut.Text

/-- The last three digits of a number, with leading zeros. -/
def threeDigits (n : Nat) : String :=
  let digits := toString (n % 1000)
  "".pushn '0' (3 - digits.length) ++ digits

/-- A number with a comma before each group of three digits but the first. -/
def grouped (n : Nat) : String :=
  if n < 1000 then toString n else grouped (n / 1000) ++ "," ++ threeDigits n
termination_by n

end KCut.Text
