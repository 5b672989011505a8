import Mathlib.Algebra.GroupWithZero.Nat
import KCut.Fault

/-!
# KCut.Proofs.Checked

Checked computations that have a result.

A step that is called inside its contract gives `.ok`. A fold of such steps is
proved by an invariant over the part of the list that has been done, which is
what `foldlM_yields` packages once.
-/

namespace KCut

@[simp] theorem ok_bind {β γ : Type} (b : β) (f : β → Except Fault γ) :
    (Except.ok b >>= f) = f b := rfl

@[simp] theorem pure_eq_ok {β : Type} (b : β) : (pure b : Except Fault β) = .ok b := rfl

variable {σ β γ : Type}

/-- The result of a checked sequence comes from a result of its first step. -/
theorem exists_of_bind_eq_ok {x : Except Fault β} {f : β → Except Fault γ} {c : γ}
    (h : (x >>= f) = .ok c) : ∃ b, x = .ok b ∧ f b = .ok c := by
  cases x with
  | ok b => exact ⟨b, rfl, h⟩
  | error fault => exact nomatch h

/-- A fold whose steps keep an invariant of the part that has been done gives a
result, and the invariant holds of the whole list. -/
theorem foldlM_yields {f : σ → β → Except Fault σ} (I : List β → σ → Prop) {l : List β} {s : σ}
    (start : I [] s)
    (step : ∀ done x rest s, l = done ++ x :: rest → I done s →
      ∃ s', f s x = .ok s' ∧ I (done ++ [x]) s') :
    ∃ s', l.foldlM f s = .ok s' ∧ I l s' := by
  -- The invariant is carried over the rest of the list, whatever has been done.
  have loop : ∀ rest done s, l = done ++ rest → I done s →
      ∃ s', rest.foldlM f s = .ok s' ∧ I l s' := by
    intro rest
    induction rest with
    | nil =>
        intro done s hl hs
        rw [List.append_nil] at hl
        exact ⟨s, rfl, hl ▸ hs⟩
    | cons x rest ih =>
        intro done s hl hs
        obtain ⟨s', hx, hs'⟩ := step done x rest s hl hs
        rw [List.foldlM_cons, hx, ok_bind]
        exact ih (done ++ [x]) s' (by rw [hl, List.append_assoc]; rfl) hs'
  exact loop l [] s rfl start

/-- The same for a list without repetitions: each item is new to what has been done. -/
theorem foldlM_yields_nodup {f : σ → β → Except Fault σ} (I : List β → σ → Prop) {l : List β}
    {s : σ} (hnodup : l.Nodup) (start : I [] s)
    (step : ∀ done x s, x ∈ l → x ∉ done → I done s → ∃ s', f s x = .ok s' ∧ I (done ++ [x]) s') :
    ∃ s', l.foldlM f s = .ok s' ∧ I l s' := by
  refine foldlM_yields I start ?_
  intro done x rest s hl hs
  have hmem : x ∈ l := by
    rw [hl]
    exact List.mem_append_right _ List.mem_cons_self
  have hnew : x ∉ done := by
    intro hdone
    rw [hl] at hnodup
    exact (List.nodup_append.1 hnodup).2.2 x hdone x List.mem_cons_self rfl
  exact step done x s hmem hnew hs

/-- Steps that all have results, one after another. -/
theorem mapM_eq_ok {f : β → Except Fault γ} {result : β → γ} {l : List β}
    (h : ∀ x ∈ l, f x = .ok (result x)) : l.mapM f = .ok (l.map result) := by
  induction l with
  | nil => rfl
  | cons x l ih =>
      obtain ⟨hx, hl⟩ := List.forall_mem_cons.1 h
      rw [List.mapM_cons, hx, ok_bind, ih hl, ok_bind]
      rfl

/-- Steps that are the same on the items of a list. -/
theorem foldlM_congr {f f' : σ → β → Except Fault σ} {l : List β}
    (h : ∀ x ∈ l, ∀ s, f s x = f' s x) (s : σ) : l.foldlM f s = l.foldlM f' s := by
  induction l generalizing s with
  | nil => rfl
  | cons x l ih =>
      obtain ⟨hx, hl⟩ := List.forall_mem_cons.1 h
      rw [List.foldlM_cons, List.foldlM_cons, hx]
      exact bind_congr fun s' => ih hl s'

/-- A fold over blocks, each of them folded over, is one fold over their items. -/
theorem foldlM_flatMap (f : σ → β → Except Fault σ) (items : γ → List β) (blocks : List γ) (s : σ) :
    blocks.foldlM (fun s b => (items b).foldlM f s) s = (blocks.flatMap items).foldlM f s := by
  induction blocks generalizing s with
  | nil => rfl
  | cons b rest ih =>
      rw [List.foldlM_cons, List.flatMap_cons, List.foldlM_append]
      exact bind_congr fun s' => ih s'

namespace Checked

theorem eq_of_add_eq_ok {m n sum : Nat} (h : add m n = .ok sum) : sum = m + n := by
  rw [add] at h
  split at h
  · exact (Except.ok.inj h).symm
  · exact nomatch h

/-- Numbers whose sum is a word are summed up. -/
theorem foldlM_add_eq_ok {l : List Nat} {start : Nat} (h : start + l.sum < bound) :
    l.foldlM add start = .ok (start + l.sum) := by
  induction l generalizing start with
  | nil => rfl
  | cons n l ih =>
      rw [List.sum_cons] at h ⊢
      rw [List.foldlM_cons, add_eq_ok (by omega), ok_bind, ih (by omega), Nat.add_assoc]

theorem eq_of_foldlM_add_eq_ok {l : List Nat} {start sum : Nat}
    (h : l.foldlM add start = .ok sum) : sum = start + l.sum := by
  induction l generalizing start with
  | nil =>
      cases h
      rfl
  | cons n l ih =>
      rw [List.foldlM_cons] at h
      obtain ⟨next, hnext, h⟩ := exists_of_bind_eq_ok h
      rw [ih h, eq_of_add_eq_ok hnext, List.sum_cons, Nat.add_assoc]

end Checked

namespace Buffer

variable {xs : Array β} {i : Nat}

theorem read_eq_getD (h : i < xs.size) (x : β) : read xs i = .ok (xs.getD i x) := by
  rw [read_eq_ok h, Array.getElem_eq_getD x]

theorem eq_of_swap_eq_ok {ys : Array β} {j : Nat} (h : swap xs i j = .ok ys) :
    ys = xs.swapIfInBounds i j := by
  rw [swap] at h
  split at h
  · exact (Except.ok.inj h).symm
  · exact nomatch h

theorem eq_of_slice_eq_ok {ys : Array β} {start stop : Nat} (h : slice xs start stop = .ok ys) :
    ys = xs.extract start stop := by
  rw [slice] at h
  split at h
  · exact (Except.ok.inj h).symm
  · exact nomatch h

end Buffer

end KCut
