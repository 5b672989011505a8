import KCut.Proofs.Abreast
import KCut.Proofs.Course.Trace

/-!
# KCut.Proofs.Beginning

Beginnings of journals.

A journal `Leads` another one if it has all beginnings of it in which no poll stops the run. So
one run leads another that makes the same entries until it is stopped, or until it has fewer
trials to make (`Leads.append`, `Parted.leads`). That a trial ends only after its candidate has
been scored is a law about beginnings as well (`Closed`).
-/

namespace KCut

variable {α : Type}

/-- The number of a trial that ends. -/
def TaskEvent.endedTrial? : TaskEvent → Option Nat
  | .ended (.trial index) => some index
  | _ => none

namespace Journal

variable {j j' k k' : Journal α}

/-- The numbers of the trials that have ended. -/
def endedTrials (j : Journal α) : List Nat :=
  j.events.filterMap TaskEvent.endedTrial?

@[simp] theorem events_append (j j' : Journal α) :
    Journal.events (j ++ j') = j.events ++ j'.events := by
  simp [events]

@[simp] theorem endedTrials_append (j j' : Journal α) :
    Journal.endedTrials (j ++ j') = j.endedTrials ++ j'.endedTrials := by
  simp [endedTrials]

@[simp] theorem scoredTrials_append (j j' : Journal α) :
    Journal.scoredTrials (j ++ j') = j.scoredTrials ++ j'.scoredTrials := by
  simp [scoredTrials]

/-- The first entries of the journal are `k`. -/
def StartsWith (j k : Journal α) : Prop :=
  ∃ rest, j = k ++ rest

/-- Two journals in a row begin like the first one, or with all of it and then like the second
one. -/
theorem startsWith_append_iff : StartsWith (j ++ j') k ↔
    j.StartsWith k ∨ ∃ k', k = j ++ k' ∧ j'.StartsWith k' := by
  constructor
  · rintro ⟨rest, heq⟩
    rcases Array.append_eq_append_iff.1 heq with ⟨k', rfl, rfl⟩ | ⟨more, rfl, -⟩
    · exact Or.inr ⟨k', rfl, rest, rfl⟩
    · exact Or.inl ⟨more, rfl⟩
  · rintro (⟨rest, rfl⟩ | ⟨k', rfl, rest, rfl⟩)
    · exact ⟨rest ++ j', Array.append_assoc⟩
    · exact ⟨rest, Array.append_assoc.symm⟩

/-- Nothing is polled, scored or ended in the journal. -/
structure Bare (j : Journal α) : Prop where
  answers_eq : j.answers = []
  scored_eq : j.scoredTrials = []
  ended_eq : j.endedTrials = []

theorem Bare.of_startsWith (h : j.Bare) (hk : j.StartsWith k) : k.Bare := by
  obtain ⟨rest, rfl⟩ := hk
  constructor
  · exact (List.append_eq_nil_iff.1 ((answers_append k rest).symm.trans h.answers_eq)).1
  · exact (List.append_eq_nil_iff.1 ((scoredTrials_append k rest).symm.trans h.scored_eq)).1
  · exact (List.append_eq_nil_iff.1 ((endedTrials_append k rest).symm.trans h.ended_eq)).1

/-- A beginning of a journal between bare ones shows what some beginning of it shows. -/
theorem exists_startsWith_of_framed {head tail : Journal α} (hhead : head.Bare) (htail : tail.Bare)
    (h : StartsWith (head ++ j ++ tail) k) : ∃ k', j.StartsWith k' ∧ k.answers = k'.answers ∧
      k.scoredTrials = k'.scoredTrials ∧ k.endedTrials = k'.endedTrials := by
  rcases startsWith_append_iff.1 h with h | ⟨more, rfl, hmore⟩
  · rcases startsWith_append_iff.1 h with h | ⟨k', rfl, hk'⟩
    · have hbare := hhead.of_startsWith h
      exact ⟨#[], ⟨j, Array.empty_append.symm⟩, hbare.answers_eq, hbare.scored_eq, hbare.ended_eq⟩
    · refine ⟨k', hk', ?_, ?_, ?_⟩
      · rw [answers_append, hhead.answers_eq, List.nil_append]
      · rw [scoredTrials_append, hhead.scored_eq, List.nil_append]
      · rw [endedTrials_append, hhead.ended_eq, List.nil_append]
  · have hbare := htail.of_startsWith hmore
    refine ⟨j, ⟨#[], Array.append_empty.symm⟩, ?_, ?_, ?_⟩
    · simp [hhead.answers_eq, hbare.answers_eq]
    · simp [hhead.scored_eq, hbare.scored_eq]
    · simp [hhead.ended_eq, hbare.ended_eq]

/-! ### Trials that have ended -/

/-- Whenever a trial has ended, its candidate has been scored before. -/
def Closed (j : Journal α) : Prop :=
  ∀ k, j.StartsWith k → ∀ i ∈ k.endedTrials, ∃ t ∈ k.scoredTrials, t.trial = i

theorem closed_of_endedTrials (h : j.endedTrials = []) : j.Closed := by
  rintro k ⟨rest, rfl⟩ i hi
  rw [endedTrials_append, List.append_eq_nil_iff] at h
  simp [h.1] at hi

theorem Closed.append (h : j.Closed) (h' : j'.Closed) : Closed (j ++ j') := by
  intro k hk i hi
  rcases startsWith_append_iff.1 hk with hk | ⟨k', rfl, hk'⟩
  · exact h k hk i hi
  · rw [scoredTrials_append]
    rw [endedTrials_append, List.mem_append] at hi
    cases hi with
    | inl hi =>
        obtain ⟨t, ht, hnumber⟩ := h j ⟨#[], Array.append_empty.symm⟩ i hi
        exact ⟨t, List.mem_append_left _ ht, hnumber⟩
    | inr hi =>
        obtain ⟨t, ht, hnumber⟩ := h' k' hk' i hi
        exact ⟨t, List.mem_append_right _ ht, hnumber⟩

/-- A trial may end once its candidate has been scored. -/
theorem Closed.ended {t : ScoredTrial α} (h : j.endedTrials = []) (ht : t ∈ j.scoredTrials) :
    Closed (j.push (.task (.ended (.trial t.trial)))) := by
  rw [Array.push_eq_append]
  rintro k ⟨rest, heq⟩ i hi
  rcases Array.append_eq_append_iff.1 heq with ⟨k', rfl, hlast⟩ | ⟨more, rfl, -⟩
  · refine ⟨t, by simp [ht], ?_⟩
    rw [endedTrials_append, h, List.nil_append] at hi
    have hmem : i ∈ Journal.endedTrials (k' ++ rest) := by
      rw [endedTrials_append]
      exact List.mem_append_left _ hi
    rw [← hlast] at hmem
    exact (List.mem_singleton.1 hmem).symm
  · rw [endedTrials_append, List.append_eq_nil_iff] at h
    simp [h.1] at hi

/-! ### Journals that lead others -/

/-- The journal `j` has all beginnings of `j'` without a stop. -/
def Leads (j j' : Journal α) : Prop :=
  ∀ k, j'.StartsWith k → true ∉ k.answers → j.StartsWith k

namespace Leads

theorem refl (j : Journal α) : j.Leads j :=
  fun _ hk _ => hk

/-- A run without entries has nothing to be led in. -/
theorem empty (j : Journal α) : j.Leads #[] := by
  rintro k ⟨rest, heq⟩ -
  obtain ⟨rfl, -⟩ := Array.append_eq_empty_iff.1 heq.symm
  exact ⟨j, Array.empty_append.symm⟩

theorem append (h : j.Leads j') (i : Journal α) : Leads (i ++ j) (i ++ j') := by
  intro k hk hcalm
  rcases startsWith_append_iff.1 hk with hk | ⟨k', rfl, hk'⟩
  · exact startsWith_append_iff.2 (Or.inl hk)
  · rw [answers_append, List.mem_append, not_or] at hcalm
    exact startsWith_append_iff.2 (Or.inr ⟨k', rfl, h k' hk' hcalm.2⟩)

end Leads

/-- **Runs that part** have the beginnings without a stop in common. -/
theorem Parted.leads (h : Parted j j') : j.Leads j' := by
  obtain ⟨i, drawn, rest, rest', rfl, rfl⟩ := h
  rw [Array.append_assoc, Array.append_assoc]
  refine Leads.append ?_ i
  rintro k ⟨more, heq⟩ hcalm
  have hlist := congrArg Array.toList heq
  rw [Array.toList_append, Array.toList_append, List.singleton_append] at hlist
  rcases List.cons_eq_append_iff.1 hlist with ⟨hnil, -⟩ | ⟨k', hk, -⟩
  · rw [Array.toList_eq_nil_iff.1 hnil]
    exact ⟨_, Array.empty_append.symm⟩
  · -- The beginning would have the stop in it.
    simp [Journal.answers, hk] at hcalm

end Journal

/-- The entries made between two scopes are determined by them. -/
theorem Scope.Later.unique {s s' : Scope α} {j j' : Journal α} (h : s.Later j s')
    (h' : s.Later j' s') : j = j' :=
  Array.append_right_inj s.journal |>.1 (h.journal_eq.symm.trans h'.journal_eq)

/-! ### Runs that lead others -/

/-- The entries that the first run has made since `s` lead those of the second one since `s'`. -/
def Scope.Leads (s s' t t' : Scope α) : Prop :=
  ∃ j j', s.Later j t ∧ s'.Later j' t' ∧ j.Leads j'

namespace Scope

variable {s s' t t' u u' : Scope α} {j : Journal α}

theorem Apart.leads (h : Apart s s' t t') : Leads s s' t t' := by
  obtain ⟨j, j', hj, hj', hparted⟩ := h
  exact ⟨j, j', hj, hj', hparted.leads⟩

theorem InStep.leads (h : InStep s s' j t t') : Leads s s' t t' :=
  ⟨j, j, h.later, h.later', .refl j⟩

theorem InStep.trans_leads (h : InStep s s' j t t') (h' : Leads t t' u u') :
    Leads s s' u u' := by
  obtain ⟨k, k', hk, hk', hleads⟩ := h'
  exact ⟨_, _, h.later.trans hk, h.later'.trans hk', hleads.append j⟩

end Scope

/-- **The same step in front of two others**: what follows it in the first run leads what follows
it in the second one, if it does so as long as the runs are in step. -/
theorem Run.Composed.bind_leads {β γ : Type} {m : Run α γ} {f f' : γ → Run α β}
    {s s' t t' : Scope α} {x x' : β} (hm : m.Composed) (hf : ∀ c, (f c).Composed)
    (hf' : ∀ c, (f' c).Composed) (hs : s.Abreast s') (h : (m >>= f) s = .ok (x, t))
    (h' : (m >>= f') s' = .ok (x', t'))
    (hnext : ∀ c u u', u.Abreast u' → f c u = .ok (x, t) → f' c u' = .ok (x', t') →
      Scope.Leads u u' t t') : Scope.Leads s s' t t' := by
  obtain ⟨c, u, hfirst, hrest⟩ := bind_eq_ok h
  obtain ⟨c', u', hfirst', hrest'⟩ := bind_eq_ok h'
  rcases hm.inStep_or_apart hs hfirst hfirst' with ⟨rfl, j, hstep⟩ | hapart
  · exact hstep.trans_leads (hnext _ u u' (hstep.abreast hs) hrest hrest')
  · obtain ⟨k, hk⟩ := (hf c).later u _ _ hrest
    obtain ⟨k', hk'⟩ := (hf' c').later u' _ _ hrest'
    exact (hapart.trans hk hk').leads

end KCut
