/-!
# KCut.Weight

Edge weights and the costs summed from them.

Design points:

* The solver is generic in its weights. Binary64 weights (`Float`) are what a
  run computes with; exact rationals (`Rat`) are what laws about sums and
  comparisons are stated for, because binary64 addition is not associative.
* A generic definition fixes the *order* of its additions, so its binary64
  instance is one definite computation and not only a value up to rounding.
* There is no "infinite" weight. A cost cell that has not been scored yet holds
  `Score.worst` (`KCut.Objective`); `aboveBottom` and `belowTop` say which
  weights beat it, since a binary64 sum may overflow or be no number.
-/

namespace KCut

/-- What the solver needs to know of a weight: a sum, a difference, a half and
a strict order. -/
class Weight (α : Type) extends Zero α, One α, Add α, Sub α where
  /-- Half a weight: an undirected edge is stored at both of its ends. -/
  half : α → α
  /-- A count of unit weights. -/
  ofNat : Nat → α
  /-- The strict order of weights. -/
  less : α → α → Bool
  /-- Weights that an edge may carry. -/
  isFinite : α → Bool
  /-- The weight exceeds every bound from below, however low. -/
  aboveBottom : α → Bool
  /-- The weight stays under every bound from above, however high. -/
  belowTop : α → Bool

/-- Binary64 weights. Minus infinity is not above the bottom, plus infinity is
not below the top, and a NaN is neither. -/
instance : Weight Float where
  half x := x * 0.5
  ofNat n := Float.ofNat n
  less x y := decide (x < y)
  isFinite x := x.isFinite
  aboveBottom x := decide (Float.ofBits 0xfff0000000000000 < x)
  belowTop x := decide (x < Float.ofBits 0x7ff0000000000000)

/-- Exact weights: every one of them is finite. -/
instance : Weight Rat where
  zero := 0
  one := 1
  half x := x / 2
  ofNat n := (n : Rat)
  less x y := decide (x < y)
  isFinite _ := true
  aboveBottom _ := true
  belowTop _ := true

namespace Weight

@[simp] theorem half_rat (x : Rat) : Weight.half x = x / 2 := rfl

@[simp] theorem ofNat_rat (n : Nat) : (Weight.ofNat n : Rat) = (n : Rat) := rfl

@[simp] theorem less_rat (x y : Rat) : Weight.less x y = decide (x < y) := rfl

@[simp] theorem isFinite_rat (x : Rat) : Weight.isFinite x = true := rfl

@[simp] theorem aboveBottom_rat (x : Rat) : Weight.aboveBottom x = true := rfl

@[simp] theorem belowTop_rat (x : Rat) : Weight.belowTop x = true := rfl

end Weight

end KCut
