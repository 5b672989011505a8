import Mathlib.Algebra.Order.Ring.Rat
import Mathlib.Data.Finset.Card
import Mathlib.Data.Prod.Lex
import KCut.Objective

/-!
# KCut.Proofs.WeightOrder

The laws of the strict order of weights.

A NaN is comparable with nothing, so binary64 weights are no linear order. They
are one as soon as a weight that is comparable with nothing is left out, and
this much is what choosing the best of several moves relies on:
`Weight.Ordered`. To compare costs with the cell that holds none, one also has to
know where the bottom and the top stand: `Weight.Bounded`. Both the exact weights
and the binary64 ones are ordered and bounded in this sense.
-/

namespace KCut

/-- The strict order of weights: linear on the weights that are comparable with
some weight. -/
class Weight.Ordered (α : Type) [Weight α] : Prop where
  less_irrefl : ∀ x : α, ¬ Weight.less x x = true
  less_trans : ∀ {x y z : α}, Weight.less x y = true → Weight.less y z = true →
    Weight.less x z = true
  /-- A comparable weight lies on one side of every gap. -/
  less_or_less : ∀ {x y z w : α}, Weight.less x y = true →
    Weight.less z w = true ∨ Weight.less w z = true →
    Weight.less x z = true ∨ Weight.less z y = true

/-- The weight is comparable with some weight: it is a number. -/
def Weight.Comparable {α : Type} [Weight α] (x : α) : Prop :=
  ∃ y, Weight.less x y = true ∨ Weight.less y x = true

/-- The bottom and the top stand at the ends of the order: what exceeds a weight is above
the bottom, and what is above the bottom exceeds all comparable weights that are not; and
the same for the top. -/
class Weight.Bounded (α : Type) [Weight α] : Prop extends Weight.Ordered α where
  aboveBottom_of_less : ∀ {x y : α}, Weight.less x y = true → Weight.aboveBottom y = true
  belowTop_of_less : ∀ {x y : α}, Weight.less x y = true → Weight.belowTop x = true
  aboveBottom_or_less : ∀ {x y : α}, Weight.aboveBottom x = true → Weight.Comparable y →
    Weight.aboveBottom y = true ∨ Weight.less y x = true
  belowTop_or_less : ∀ {x y : α}, Weight.belowTop x = true → Weight.Comparable y →
    Weight.belowTop y = true ∨ Weight.less x y = true

/-! ### Exact weights -/

instance : Weight.Ordered Rat where
  less_irrefl x := by simp
  less_trans hxy hyz := by
    simp only [Weight.less_rat, decide_eq_true_eq] at *
    exact lt_trans hxy hyz
  less_or_less {x y z _} hxy _ := by
    simp only [Weight.less_rat, decide_eq_true_eq] at *
    exact (lt_or_ge x z).imp_right fun hzx => lt_of_le_of_lt hzx hxy

instance : Weight.Bounded Rat where
  aboveBottom_of_less _ := rfl
  belowTop_of_less _ := rfl
  aboveBottom_or_less _ _ := Or.inl rfl
  belowTop_or_less _ _ := Or.inl rfl

theorem Weight.comparable_rat (x : Rat) : Weight.Comparable x :=
  ⟨x + 1, Or.inl (by simp)⟩

/-! ### Binary64 weights

A binary64 number that is no NaN has a rank, and one is less than the other iff
its rank is. -/

namespace BinaryWeight

open Float.Model

/-- Where a number stands: its sign class, then its exponent, then its mantissa,
the latter two turned round for negative numbers. -/
def rank : UnpackedFloat → Option (ℤ ×ₗ ℤ ×ₗ ℤ)
  | .notANumber => none
  | .infinity .negative => some (toLex (-2, toLex (0, 0)))
  | .finite .negative m e _ => some (toLex (-1, toLex (-e, -m)))
  | .zero _ => some (toLex (0, toLex (0, 0)))
  | .finite .positive m e _ => some (toLex (1, toLex (e, m)))
  | .infinity .positive => some (toLex (2, toLex (0, 0)))

theorem compare_then_compare_eq_lt {e₁ e₂ : ℤ} {m₁ m₂ : ℕ} :
    (compare e₁ e₂).then (compare m₁ m₂) = .lt ↔ e₁ < e₂ ∨ e₁ = e₂ ∧ m₁ < m₂ := by
  rw [Ordering.then_eq_lt, compare_lt_iff_lt, compare_eq_iff_eq, compare_lt_iff_lt]

theorem compare_then_compare_eq_gt {e₁ e₂ : ℤ} {m₁ m₂ : ℕ} :
    (compare e₁ e₂).then (compare m₁ m₂) = .gt ↔ e₂ < e₁ ∨ e₁ = e₂ ∧ m₂ < m₁ := by
  rw [Ordering.then_eq_gt, compare_gt_iff_gt, compare_eq_iff_eq, compare_gt_iff_gt]

theorem compare_negative_positive :
    compare UnpackedFloat.Sign.negative UnpackedFloat.Sign.positive = .lt := rfl

/-- The comparison of numbers is the comparison of their ranks. -/
theorem lt_iff_rank (x y : UnpackedFloat) :
    x.lt y = true ↔ ∃ r s, rank x = some r ∧ rank y = some s ∧ r < s := by
  unfold UnpackedFloat.lt
  rw [beq_iff_eq]
  rcases x with (_ | _) | _ | _ | ⟨_ | _, m, e, hm⟩ <;>
    rcases y with (_ | _) | _ | _ | ⟨_ | _, m', e', hm'⟩ <;>
    dsimp only [UnpackedFloat.compare, rank] <;>
    simp [Prod.Lex.toLex_lt_toLex, compare_then_compare_eq_lt, Ordering.swap_eq_lt,
      compare_then_compare_eq_gt, compare_negative_positive]

/-- The rank of a binary64 number. -/
def floatRank (x : Float) : Option (ℤ ×ₗ ℤ ×ₗ ℤ) :=
  rank x.toModel.unpack

theorem less_iff_floatRank (x y : Float) :
    Weight.less x y = true ↔ ∃ r s, floatRank x = some r ∧ floatRank y = some s ∧ r < s := by
  have hless : Weight.less x y = x.lt y := by
    change decide (x.lt y = true) = x.lt y
    simp
  rw [hless, floatRank, floatRank, ← lt_iff_rank]
  unfold Float.lt
  rw [decide_eq_true_eq]
  rfl

/-- The ranks of the infinities, which are the least and the greatest one. -/
def bottomRank : ℤ ×ₗ ℤ ×ₗ ℤ := toLex (-2, toLex (0, 0))

def topRank : ℤ ×ₗ ℤ ×ₗ ℤ := toLex (2, toLex (0, 0))

theorem floatRank_minusInfinity :
    floatRank (Float.ofBits 0xfff0000000000000) = some bottomRank := rfl

theorem floatRank_plusInfinity : floatRank (Float.ofBits 0x7ff0000000000000) = some topRank := rfl

theorem rank_bounds {x : UnpackedFloat} {r : ℤ ×ₗ ℤ ×ₗ ℤ} (h : rank x = some r) :
    bottomRank ≤ r ∧ r ≤ topRank := by
  rcases x with (_ | _) | _ | _ | ⟨_ | _, m, e, hm⟩ <;> cases h <;>
    simp [bottomRank, topRank, Prod.Lex.toLex_le_toLex]

theorem aboveBottom_iff_floatRank (x : Float) :
    Weight.aboveBottom x = true ↔ ∃ r, floatRank x = some r ∧ bottomRank < r := by
  have hless := less_iff_floatRank (Float.ofBits 0xfff0000000000000) x
  rw [floatRank_minusInfinity] at hless
  refine hless.trans ⟨?_, ?_⟩
  · intro hless
    obtain ⟨bottom, r, hbottom, hr, hlt⟩ := hless
    exact ⟨r, hr, Option.some.inj hbottom ▸ hlt⟩
  · intro habove
    obtain ⟨r, hr, hlt⟩ := habove
    exact ⟨_, r, rfl, hr, hlt⟩

theorem belowTop_iff_floatRank (x : Float) :
    Weight.belowTop x = true ↔ ∃ r, floatRank x = some r ∧ r < topRank := by
  have hless := less_iff_floatRank x (Float.ofBits 0x7ff0000000000000)
  rw [floatRank_plusInfinity] at hless
  refine hless.trans ⟨?_, ?_⟩
  · intro hless
    obtain ⟨r, top, hr, htop, hlt⟩ := hless
    exact ⟨r, hr, Option.some.inj htop ▸ hlt⟩
  · intro hbelow
    obtain ⟨r, hr, hlt⟩ := hbelow
    exact ⟨r, _, hr, rfl, hlt⟩

theorem comparable_iff_floatRank (x : Float) :
    Weight.Comparable x ↔ ∃ r, floatRank x = some r := by
  constructor
  · intro hcomparable
    obtain ⟨y, h | h⟩ := hcomparable
    · obtain ⟨r, -, hr, -, -⟩ := (less_iff_floatRank x y).1 h
      exact ⟨r, hr⟩
    · obtain ⟨-, r, -, hr, -⟩ := (less_iff_floatRank y x).1 h
      exact ⟨r, hr⟩
  · intro hrank
    obtain ⟨r, hr⟩ := hrank
    -- A number differs from one of the infinities.
    by_cases hbottom : bottomRank < r
    · exact ⟨_, Or.inr ((less_iff_floatRank _ x).2
        ⟨_, r, floatRank_minusInfinity, hr, hbottom⟩)⟩
    · have hle := (le_of_not_gt hbottom).trans_lt (by decide : bottomRank < topRank)
      exact ⟨_, Or.inl ((less_iff_floatRank x _).2 ⟨r, _, hr, floatRank_plusInfinity, hle⟩)⟩

/-- The numbers that are comparable with some number are those that are no NaN. -/
theorem comparable_iff_isNaN (x : Float) : Weight.Comparable x ↔ x.isNaN = false := by
  rw [comparable_iff_floatRank]
  show (∃ r, rank x.toModel.unpack = some r) ↔ x.toModel.unpack.isNaN = false
  cases x.toModel.unpack with
  | notANumber =>
      constructor
      · intro hrank
        obtain ⟨r, hr⟩ := hrank
        cases hr
      · intro hnan
        cases hnan
  | infinity sign => cases sign <;> exact ⟨fun _ => rfl, fun _ => ⟨_, rfl⟩⟩
  | zero sign => exact ⟨fun _ => rfl, fun _ => ⟨_, rfl⟩⟩
  | finite sign m e hm => cases sign <;> exact ⟨fun _ => rfl, fun _ => ⟨_, rfl⟩⟩

end BinaryWeight

open BinaryWeight in
instance : Weight.Ordered Float where
  less_irrefl x hx := by
    obtain ⟨r, s, hr, hs, hlt⟩ := (less_iff_floatRank x x).1 hx
    obtain rfl : r = s := Option.some.inj (hr.symm.trans hs)
    exact lt_irrefl r hlt
  less_trans {x y z} hxy hyz := by
    obtain ⟨r, s, hr, hs, hrs⟩ := (less_iff_floatRank x y).1 hxy
    obtain ⟨s', t, hs', ht, hst⟩ := (less_iff_floatRank y z).1 hyz
    obtain rfl : s = s' := Option.some.inj (hs.symm.trans hs')
    exact (less_iff_floatRank x z).2 ⟨r, t, hr, ht, hrs.trans hst⟩
  less_or_less {x y z w} hxy hzw := by
    obtain ⟨r, s, hr, hs, hrs⟩ := (less_iff_floatRank x y).1 hxy
    obtain ⟨t, ht⟩ := (comparable_iff_floatRank z).1 ⟨w, hzw⟩
    rcases lt_or_ge r t with hrt | htr
    · exact Or.inl ((less_iff_floatRank x z).2 ⟨r, t, hr, ht, hrt⟩)
    · exact Or.inr ((less_iff_floatRank z y).2 ⟨t, s, ht, hs, lt_of_le_of_lt htr hrs⟩)

open BinaryWeight in
instance : Weight.Bounded Float where
  aboveBottom_of_less {x y} hxy := by
    obtain ⟨r, s, hr, hs, hrs⟩ := (less_iff_floatRank x y).1 hxy
    exact (aboveBottom_iff_floatRank y).2 ⟨s, hs, (rank_bounds hr).1.trans_lt hrs⟩
  belowTop_of_less {x y} hxy := by
    obtain ⟨r, s, hr, hs, hrs⟩ := (less_iff_floatRank x y).1 hxy
    exact (belowTop_iff_floatRank x).2 ⟨r, hr, hrs.trans_le (rank_bounds hs).2⟩
  aboveBottom_or_less {x y} hx hy := by
    obtain ⟨r, hr, hlt⟩ := (aboveBottom_iff_floatRank x).1 hx
    obtain ⟨s, hs⟩ := (comparable_iff_floatRank y).1 hy
    rcases lt_or_ge bottomRank s with habove | hle
    · exact Or.inl ((aboveBottom_iff_floatRank y).2 ⟨s, hs, habove⟩)
    · exact Or.inr ((less_iff_floatRank y x).2 ⟨s, r, hs, hr, hle.trans_lt hlt⟩)
  belowTop_or_less {x y} hx hy := by
    obtain ⟨r, hr, hlt⟩ := (belowTop_iff_floatRank x).1 hx
    obtain ⟨s, hs⟩ := (comparable_iff_floatRank y).1 hy
    rcases lt_or_ge s topRank with hbelow | hle
    · exact Or.inl ((belowTop_iff_floatRank y).2 ⟨s, hs, hbelow⟩)
    · exact Or.inr ((less_iff_floatRank x y).2 ⟨r, s, hr, hs, hlt.trans_le hle⟩)

/-! ### Better costs

`Objective.better` is the order of weights or its reverse, so it obeys the same
laws. -/

namespace Objective

variable {α : Type} [Weight α] [Weight.Ordered α] (o : Objective)

theorem not_better_self (x : α) : ¬ o.better x x = true := by
  cases o <;> exact Weight.Ordered.less_irrefl x

theorem better_trans {x y z : α} (hxy : o.better x y = true) (hyz : o.better y z = true) :
    o.better x z = true := by
  cases o with
  | maximize => exact Weight.Ordered.less_trans hyz hxy
  | minimize => exact Weight.Ordered.less_trans hxy hyz

theorem better_asymm {x y : α} (h : o.better x y = true) : ¬ o.better y x = true :=
  fun h' => o.not_better_self x (o.better_trans h h')

/-- Of a cost and a better one, every comparable cost is worse than the better
one or better than the other. -/
theorem better_or_better_of_comparable {x y z : α} (hxy : o.better x y = true)
    (hz : Weight.Comparable z) : o.better x z = true ∨ o.better z y = true := by
  obtain ⟨w, hw⟩ := hz
  cases o with
  | maximize => exact (Weight.Ordered.less_or_less hxy hw).symm
  | minimize => exact Weight.Ordered.less_or_less hxy hw

theorem better_or_better {x y z w : α} (hxy : o.better x y = true)
    (hz : o.better z w = true) : o.better x z = true ∨ o.better z y = true := by
  refine o.better_or_better_of_comparable hxy ⟨w, ?_⟩
  cases o with
  | maximize => exact Or.inr hz
  | minimize => exact Or.inl hz

end Objective

/-! ### Better cells

The comparison of cost cells obeys the same laws, with the unscored cell as the worst. -/

/-- The cell holds nothing, or a number. -/
def Score.Comparable {α : Type} [Weight α] : Score α → Prop
  | .worst => True
  | .of cost => Weight.Comparable cost

theorem Score.comparable_rat (score : Score Rat) : score.Comparable := by
  cases score with
  | worst => trivial
  | of cost => exact Weight.comparable_rat cost

namespace Objective

variable {α : Type} [Weight α] [Weight.Bounded α] (o : Objective) {x y z : Score α}

theorem not_prefers_self (x : Score α) : ¬ o.prefers x x = true := by
  cases x with
  | worst => simp
  | of cost => exact o.not_better_self cost

/-- What is better than another cost is better than none. -/
theorem prefers_worst_of_prefers (h : o.prefers x y = true) : o.prefers x .worst = true := by
  cases x with
  | worst => simp at h
  | of x =>
      cases y with
      | worst => exact h
      | of y =>
          cases o with
          | maximize => exact Weight.Bounded.aboveBottom_of_less h
          | minimize => exact Weight.Bounded.belowTop_of_less h

theorem prefers_trans (hxy : o.prefers x y = true) (hyz : o.prefers y z = true) :
    o.prefers x z = true := by
  cases z with
  | worst => exact o.prefers_worst_of_prefers hxy
  | of z =>
      cases x with
      | worst => simp at hxy
      | of x =>
          cases y with
          | worst => simp at hyz
          | of y => exact o.better_trans hxy hyz

theorem prefers_asymm (h : o.prefers x y = true) : ¬ o.prefers y x = true :=
  fun h' => o.not_prefers_self x (o.prefers_trans h h')

/-- Of a cell and a better one, every comparable cell is worse than the better one or
better than the other. -/
theorem prefers_or_prefers (hxy : o.prefers x y = true) (hz : z.Comparable) :
    o.prefers x z = true ∨ o.prefers z y = true := by
  cases z with
  | worst => exact Or.inl (o.prefers_worst_of_prefers hxy)
  | of z =>
      cases x with
      | worst => simp at hxy
      | of x =>
          cases y with
          | worst =>
              cases o with
              | maximize => exact (Weight.Bounded.aboveBottom_or_less hxy hz).symm
              | minimize => exact (Weight.Bounded.belowTop_or_less hxy hz).symm
          | of y => exact o.better_or_better_of_comparable hxy hz

/-! A family of costs has only so many members, so it cannot go on getting better. -/

variable {ι : Type}

/-- The number of members of a family of costs that are better than the content of a cell. -/
def countBetter (family : Finset ι) (cost : ι → Score α) (score : Score α) : Nat :=
  (family.filter fun i => o.prefers (cost i) score = true).card

omit [Weight.Bounded α] in
theorem countBetter_le (family : Finset ι) (cost : ι → Score α) (score : Score α) :
    o.countBetter family cost score ≤ family.card :=
  Finset.card_filter_le _ _

/-- **A better member leaves fewer that are better still.** -/
theorem countBetter_lt {family : Finset ι} (cost : ι → Score α) {i : ι} (hi : i ∈ family)
    {score : Score α} (hbetter : o.prefers (cost i) score = true) :
    o.countBetter family cost (cost i) < o.countBetter family cost score := by
  refine Finset.card_lt_card (Finset.ssubset_iff_of_subset ?_ |>.2 ⟨i, ?_, ?_⟩)
  · intro j hj
    rw [Finset.mem_filter] at hj ⊢
    exact ⟨hj.1, o.prefers_trans hj.2 hbetter⟩
  · rw [Finset.mem_filter]
    exact ⟨hi, hbetter⟩
  · rw [Finset.mem_filter]
    exact fun h => o.not_prefers_self _ h.2

end Objective

namespace Objective

variable (o : Objective)

/-- Every exact number is better than an empty cell. -/
theorem prefers_of_worst_rat (x : Rat) : o.prefers (.of x) .worst = true := by
  cases o <;> rfl

/-- Of two cells with exact numbers or none, the one that is not worse is better or the same. -/
theorem eq_or_prefers_rat {x y : Score Rat} (h : ¬ o.prefers y x = true) :
    x = y ∨ o.prefers x y = true := by
  cases y with
  | worst =>
      cases x with
      | worst => exact Or.inl rfl
      | of x => exact Or.inr (o.prefers_of_worst_rat x)
  | of y =>
      cases x with
      | worst => exact absurd (o.prefers_of_worst_rat y) h
      | of x =>
          rw [Score.of.injEq]
          cases o with
          | maximize =>
              simp only [prefers_of_of, better_maximize, Weight.less_rat, decide_eq_true_eq] at *
              exact (le_of_not_gt h).eq_or_lt.imp_left Eq.symm
          | minimize =>
              simp only [prefers_of_of, better_minimize, Weight.less_rat, decide_eq_true_eq] at *
              exact (le_of_not_gt h).eq_or_lt

end Objective

end KCut
