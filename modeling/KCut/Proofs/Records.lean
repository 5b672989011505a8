import KCut.Journal
import KCut.Proofs.WeightOrder

/-!
# KCut.Proofs.Records

The records among scored trials: those with a better cost than all trials before them.

A record is defined by comparisons with everything that came before it. Later trials do
not take it back (`records_concat`), and among records trials and costs go one way
(`pairwise_records`).
-/

namespace KCut.Objective

variable {α : Type} [Weight α] (o : Objective)

/-- The trials whose cost is better than each of `earlier` and than the cost of every trial
in front of them. -/
def records : (earlier : List (Score α)) → List (ScoredTrial α) → List (ScoredTrial α)
  | _, [] => []
  | earlier, t :: rest =>
      if ∀ cost ∈ earlier, o.prefers t.cost cost = true then
        t :: records (t.cost :: earlier) rest
      else records (t.cost :: earlier) rest

variable {o} {earlier : List (Score α)} {trials : List (ScoredTrial α)} {t : ScoredTrial α}

/-- **One more trial** is a record if it is better than everything before it; which trials
were records before stays as it is. -/
theorem records_concat :
    o.records earlier (trials ++ [t]) = o.records earlier trials ++
      if ∀ cost ∈ earlier ++ trials.map (·.cost), o.prefers t.cost cost = true then [t]
      else [] := by
  induction trials generalizing earlier with
  | nil =>
      simp only [List.nil_append, records, List.map_nil, List.append_nil]
  | cons first rest ih =>
      have hsame : (∀ cost ∈ (first.cost :: earlier) ++ rest.map (·.cost),
            o.prefers t.cost cost = true) ↔
          ∀ cost ∈ earlier ++ (first :: rest).map (·.cost), o.prefers t.cost cost = true := by
        simp only [List.map_cons, List.mem_append, List.mem_cons]
        grind
      rw [List.cons_append, records, records, ih, if_congr hsame rfl rfl]
      split
      · rw [List.cons_append]
      · rfl

theorem records_sublist : (o.records earlier trials).Sublist trials := by
  induction trials generalizing earlier with
  | nil => exact List.Sublist.refl _
  | cons first rest ih =>
      rw [records]
      split
      · exact ih.cons_cons first
      · exact ih.cons first

/-- **More trials** leave the records as they are, and add some of their own. -/
theorem exists_records_append (more : List (ScoredTrial α)) :
    ∃ later, o.records earlier (trials ++ more) = o.records earlier trials ++ later ∧
      later.Sublist more := by
  induction trials generalizing earlier with
  | nil => exact ⟨_, rfl, records_sublist⟩
  | cons first rest ih =>
      obtain ⟨later, hlater, hsublist⟩ := @ih (first.cost :: earlier)
      refine ⟨later, ?_, hsublist⟩
      rw [List.cons_append, records, records, hlater]
      split <;> rfl

/-- A record is better than everything in front of it. -/
theorem split_of_mem_records (h : t ∈ o.records earlier trials) :
    ∃ before after, trials = before ++ t :: after ∧
      ∀ cost ∈ earlier ++ before.map (·.cost), o.prefers t.cost cost = true := by
  induction trials generalizing earlier with
  | nil => exact absurd h List.not_mem_nil
  | cons first rest ih =>
      have hrest : t ∈ o.records (first.cost :: earlier) rest →
          ∃ before after, first :: rest = before ++ t :: after ∧
            ∀ cost ∈ earlier ++ before.map (·.cost), o.prefers t.cost cost = true := by
        intro hmem
        obtain ⟨before, after, rfl, hbetter⟩ := ih hmem
        refine ⟨first :: before, after, rfl, fun cost hcost => hbetter cost ?_⟩
        simp only [List.map_cons, List.mem_append, List.mem_cons] at hcost ⊢
        tauto
      rw [records] at h
      split at h
      · next hfirst =>
        cases h with
        | head => exact ⟨[], rest, rfl, by simpa using hfirst⟩
        | tail _ hmem => exact hrest hmem
      · exact hrest h

/-- **Every record is better than the records before it.** -/
theorem pairwise_records :
    (o.records earlier trials).Pairwise fun t t' => o.prefers t'.cost t.cost = true := by
  induction trials generalizing earlier with
  | nil => exact List.Pairwise.nil
  | cons first rest ih =>
      rw [records]
      split
      · refine List.Pairwise.cons ?_ ih
        intro t ht
        obtain ⟨before, after, -, hbetter⟩ := split_of_mem_records ht
        exact hbetter _ (List.mem_append_left _ List.mem_cons_self)
      · exact ih

/-! ### Single trials -/

variable {former later : List (ScoredTrial α)}

omit [Weight α] in
/-- The number of a trial belongs to no other one. -/
theorem filter_trial_eq_singleton
    (hordered : trials.Pairwise fun t t' => t.trial < t'.trial) (ht : t ∈ trials) :
    trials.filter (·.trial = t.trial) = [t] := by
  obtain ⟨before, after, rfl⟩ := List.append_of_mem ht
  obtain ⟨-, hafter, hbefore⟩ := List.pairwise_append.1 hordered
  have hnone : before.filter (·.trial = t.trial) = [] := by
    rw [List.filter_eq_nil_iff]
    intro t' ht'
    have hlt := hbefore t' ht' t List.mem_cons_self
    simpa using Nat.ne_of_lt hlt
  have hnone' : after.filter (·.trial = t.trial) = [] := by
    rw [List.filter_eq_nil_iff]
    intro t' ht'
    have hlt := List.rel_of_pairwise_cons hafter ht'
    simpa using Nat.ne_of_gt hlt
  rw [List.filter_append, hnone, List.filter_cons_of_pos (by simp), hnone', List.nil_append]

/-- Which trials were records does not depend on later ones. -/
theorem filter_records_append
    (hordered : (former ++ later).Pairwise fun t t' => t.trial < t'.trial) {numbers : List Nat}
    (hnumbers : ∀ i ∈ numbers, ∃ t ∈ former, t.trial = i) :
    (o.records earlier (former ++ later)).filter (·.trial ∈ numbers) =
      (o.records earlier former).filter (·.trial ∈ numbers) := by
  obtain ⟨more, hmore, hsublist⟩ : ∃ more, o.records earlier (former ++ later) =
      o.records earlier former ++ more ∧ more.Sublist later := exists_records_append later
  have hnone : more.filter (·.trial ∈ numbers) = [] := by
    rw [List.filter_eq_nil_iff]
    intro t' ht' hmem
    obtain ⟨t, ht, hnumber⟩ := hnumbers _ (of_decide_eq_true hmem)
    have hlt := (List.pairwise_append.1 hordered).2.2 t ht t' (hsublist.subset ht')
    omega
  rw [hmore, List.filter_append, hnone, List.append_nil]

end KCut.Objective
