import Mathlib.Algebra.GroupWithZero.Nat
import KCut.Proofs.Checked
import KCut.Random.Stream

/-!
# KCut.Proofs.Random

Draws stay in their range.

A number below `size` is the high part of a product with `size`. A second draw may
carry one into it, but only while the low part of the first product is so large
that the high part is not the last number of the range (`below_lt`).

Several draws in a row are one (`ranges`), so what a loop draws can be told apart from
what it does with it.
-/

namespace KCut.Random.Stream

theorem nextBits_lt (s : Stream) (wide : Bool) : (s.nextBits wide).1 < span wide := by
  cases wide with
  | true => exact UInt64.toNat_lt _
  | false => exact UInt32.toNat_lt _

/-- The high part of a product of a word with `size`. -/
theorem mul_div_lt {x size m : Nat} (hx : x < m) (hpos : 0 < size) : x * size / m < size := by
  rw [Nat.div_lt_iff_lt_mul (by omega), Nat.mul_comm size m]
  exact Nat.mul_lt_mul_of_pos_right hx hpos

/-- If the high part of a product is the last number below `size`, its low part
leaves room for a carry. -/
theorem mul_mod_le_of_div {x size m : Nat} (hx : x < m) (hle : size ≤ m)
    (hlast : x * size / m + 1 = size) : x * size % m ≤ m - size := by
  have hdiv := Nat.div_add_mod (x * size) m
  have hbound : (x + 1) * size ≤ m * size := Nat.mul_le_mul_right size hx
  have hhigh : m * (x * size / m) + m = m * size := by
    rw [← Nat.mul_succ]
    exact congrArg (m * ·) hlast
  rw [Nat.succ_mul] at hbound
  omega

/-- **A draw from `0, …, size - 1` is one of these numbers.** -/
theorem below_lt (s : Stream) {wide : Bool} {size : Nat} (hpos : 0 < size)
    (hle : size ≤ span wide) :
    (s.below wide size).1 < size := by
  have hx := nextBits_lt s wide
  have hhigh := mul_div_lt hx hpos
  unfold below
  dsimp only
  split
  · next hrest =>
    have hlast : (s.nextBits wide).1 * size / span wide + 1 ≠ size := fun hlast =>
      absurd (mul_mod_le_of_div hx hle hlast) (Nat.not_le.2 hrest)
    split
    · show (s.nextBits wide).1 * size / span wide + 1 < size
      omega
    · exact hhigh
  · exact hhigh

/-- **A draw from a range that is not empty gives a number of the range.** -/
theorem range_eq_ok (s : Stream) {low high : Nat} (h : low < high) (hword : high ≤ 2 ^ 64) :
    ∃ x s', s.range low high = .ok (x, s') ∧ low ≤ x ∧ x < high := by
  have hle : high - low ≤ span (0x1_0000_0000 ≤ high) := by
    unfold span
    split
    · omega
    · next hsmall =>
      rw [decide_eq_true_eq] at hsmall
      omega
  have hlt := below_lt s (Nat.sub_pos_of_lt h) hle
  refine ⟨low + (s.below (0x1_0000_0000 ≤ high) (high - low)).1,
    (s.below (0x1_0000_0000 ≤ high) (high - low)).2, ?_, Nat.le_add_right _ _, by omega⟩
  rw [range, if_pos h]

/-- A draw is never below its range. -/
theorem low_le_of_range {s s' : Stream} {low high x : Nat} (h : s.range low high = .ok (x, s')) :
    low ≤ x := by
  rw [range] at h
  split at h
  · rw [Except.ok.injEq, Prod.mk.injEq] at h
    rw [← h.1]
    exact Nat.le_add_right _ _
  · exact nomatch h

/-- Draws from several ranges, one after another. -/
def ranges (s : Stream) : List (Nat × Nat) → Except Fault (List Nat × Stream)
  | [] => .ok ([], s)
  | (low, high) :: rest => do
      let (x, s) ← s.range low high
      let (xs, s) ← s.ranges rest
      return (x :: xs, s)

theorem ranges_cons_eq_ok {s s₁ s₂ : Stream} {low high x : Nat} {xs : List Nat}
    {bounds : List (Nat × Nat)} (hx : s.range low high = .ok (x, s₁))
    (hxs : s₁.ranges bounds = .ok (xs, s₂)) :
    s.ranges ((low, high) :: bounds) = .ok (x :: xs, s₂) := by
  rw [ranges, hx, ok_bind]
  dsimp only
  rw [hxs]
  rfl

theorem ranges_append_eq_ok {s s₁ s₂ : Stream} {xs ys : List Nat} {bounds more : List (Nat × Nat)}
    (hxs : s.ranges bounds = .ok (xs, s₁)) (hys : s₁.ranges more = .ok (ys, s₂)) :
    s.ranges (bounds ++ more) = .ok (xs ++ ys, s₂) := by
  induction bounds generalizing s xs with
  | nil =>
      rw [ranges, Except.ok.injEq, Prod.mk.injEq] at hxs
      obtain ⟨rfl, rfl⟩ := hxs
      exact hys
  | cons bound rest ih =>
      obtain ⟨low, high⟩ := bound
      rw [ranges] at hxs
      obtain ⟨⟨x, s'⟩, hx, hfurther⟩ := exists_of_bind_eq_ok hxs
      obtain ⟨⟨xs', s''⟩, hrest, hpure⟩ := exists_of_bind_eq_ok hfurther
      cases hpure
      exact ranges_cons_eq_ok hx (ih hrest)

end KCut.Random.Stream
