/-!
# KCut.Text.Fixed

Binary64 numbers with a fixed number of decimal places.

Design points:

* A finite number is the fraction `(-1) ^ s * m / d` that its bits say, so its
  places are found in exact arithmetic and rounded once.
* `roundDiv` rounds a quotient to the nearest integer, a half to the even one.
* The sign of a number is kept even if all its places are zero.
-/

namespace KCut.Text

/-- The quotient `n / d` rounded to the nearest integer, a half to the even one. -/
def roundDiv (n d : Nat) : Nat :=
  let q := n / d
  let r := n % d
  if 2 * r < d then q
  else if d < 2 * r then q + 1
  else if q % 2 = 0 then q
  else q + 1

/-- A finite binary64 number: `num / den`, negated if `negative`. -/
structure Dyadic where
  negative : Bool
  num : Nat
  den : Nat
deriving Repr, DecidableEq

/-- The number that 64 bits stand for; none for an infinity or a NaN. -/
def Dyadic.ofBits? (bits : Nat) : Option Dyadic :=
  let negative := bits / Nat.pow 2 63 % 2 = 1
  let exponent := bits / Nat.pow 2 52 % Nat.pow 2 11
  let fraction := bits % Nat.pow 2 52
  if exponent = 2047 then none
  else if exponent = 0 then some ⟨negative, fraction, Nat.pow 2 1074⟩
  else if 1075 ≤ exponent then some ⟨negative, (Nat.pow 2 52 + fraction) * Nat.pow 2 (exponent - 1075), 1⟩
  else some ⟨negative, Nat.pow 2 52 + fraction, Nat.pow 2 (1075 - exponent)⟩

/-- A number with `places` decimal places, at least one. -/
def Dyadic.fixed (places : Nat) (x : Dyadic) : String :=
  let scaled := roundDiv (x.num * Nat.pow 10 places) x.den
  let digits := toString (scaled % Nat.pow 10 places)
  (if x.negative then "-" else "") ++ toString (scaled / Nat.pow 10 places) ++ "." ++
    "".pushn '0' (places - digits.length) ++ digits

/-- A binary64 number with `places` decimal places, at least one. -/
def fixed (places : Nat) (x : Float) : String :=
  match Dyadic.ofBits? x.toBits.toNat with
  | some d => d.fixed places
  | none => if x.isNaN then "NaN" else if x < 0 then "-inf" else "inf"

end KCut.Text
