import KCut.LocalSearch.Swap
import KCut.Proofs.Checked
import KCut.Run

/-!
# KCut.Proofs.Safety.LocalSearch

Local searches decrement no counter from zero, whatever the state that they start in.

A node moves only after the size of its community has been compared with the minimum, and that
comparison is one with the counter itself. So this asks neither that the tally counts the
assignment nor anything of the weights.
-/

namespace KCut

namespace Run

variable {α β : Type} {s : Scope α}

/-- The result of a checked computation as a step is its own. -/
theorem eq_ok_of_check {x : Except Fault β} {b : β} {s' : Scope α}
    (h : check x s = .ok (b, s')) : x = .ok b := by
  cases x with
  | ok c =>
      cases h
      rfl
  | error fault => exact nomatch h

end Run

/-- The tally `t'` is `t`, or one node has changed its community in it. The counter of the
community that it left was not at zero. -/
def Tally.StepsTo (t t' : Tally) : Prop :=
  t' = t ∨ ∃ source target, 0 < t.getD source 0 ∧ t.move source target = .ok t'

theorem Tally.getD_of_get {t : Tally} {c n : Nat} (h : t.get c = .ok n) : t.getD c 0 = n := by
  rcases Nat.lt_or_ge c t.size with hc | hc
  · rw [Tally.get, Buffer.read_eq_ok hc, Except.ok.injEq] at h
    simp [hc, h]
  · rw [Tally.get, Buffer.read_eq_error hc] at h
    cases h

namespace LocalSearch

variable {α : Type} {ls : LocalSearch α} {s s' : SwapState} {v : Nat}

theorem claim_tally {current target : Nat} (h : ls.claim v current target s = .ok s') :
    s'.tally = s.tally ∨ s.tally.move current target = .ok s'.tally := by
  rw [claim] at h
  obtain ⟨marks, -, h⟩ := exists_of_bind_eq_ok h
  obtain ⟨arcs, -, h⟩ := exists_of_bind_eq_ok h
  obtain ⟨⟨free, marks'⟩, -, h⟩ := exists_of_bind_eq_ok h
  dsimp only at h
  split at h
  · obtain ⟨tally, hmove, h⟩ := exists_of_bind_eq_ok h
    obtain ⟨assignment, -, h⟩ := exists_of_bind_eq_ok h
    cases h
    exact Or.inr hmove
  · obtain ⟨marks'', -, h⟩ := exists_of_bind_eq_ok h
    cases h
    exact Or.inl rfl

/-- **A visit decrements no counter from zero**, whatever the state it starts in. -/
theorem visit_tally [Weight α] {table : Array α} (h : ls.visit table s v = .ok s') :
    s.tally.StepsTo s'.tally := by
  rw [visit] at h
  obtain ⟨current, -, h⟩ := exists_of_bind_eq_ok h
  obtain ⟨row, -, h⟩ := exists_of_bind_eq_ok h
  obtain ⟨here, -, h⟩ := exists_of_bind_eq_ok h
  dsimp only at h
  split at h
  · cases h
    exact Or.inl rfl
  obtain ⟨size, hsize, h⟩ := exists_of_bind_eq_ok h
  obtain ⟨least, -, h⟩ := exists_of_bind_eq_ok h
  split at h
  · cases h
    exact Or.inl rfl
  next hleast =>
  obtain ⟨mark, -, h⟩ := exists_of_bind_eq_ok h
  split at h
  · cases h
    exact Or.inl rfl
  -- The size has been compared with the minimum, so it is not zero.
  refine (claim_tally h).imp_right fun hmove => ⟨current, _, ?_, hmove⟩
  rw [Tally.getD_of_get hsize]
  omega

end LocalSearch

end KCut
