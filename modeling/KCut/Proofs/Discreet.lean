import KCut.Construction
import KCut.NeighborhoodSearch
import KCut.Proofs.Run

/-!
# KCut.Proofs.Discreet

Steps of a run that leave its records alone.

The records of a run are the candidates that were scored, those that were sent to the
caller, the ones that the log shows as new bests, and their number in the statistics.
Only a competition between candidates adds to them: constructions and searches are
discreet. Nothing is asked of the buffers that such a step works in, nor of the numbers
in them, so this holds for all weights. It is a statement about the results that a step
has, and none about whether it has one.

More is true of these steps. Reservations and perturbations are `Silent`: they only draw and
compute. Searches are `Plain`: put together from primitive steps that add to no record and
do not ask for the number of workers. What holds of each of these primitive steps and is
kept by sequences, holds of all searches.
-/

namespace KCut

variable {α β γ : Type}

/-- The candidates that the log shows as new bests: number of the trial and cost. -/
def Journal.newBests (j : Journal α) : List (Nat × Score α) :=
  (j.log false).filterMap fun
    | .newBest trial cost => some (trial, cost)
    | _ => none

/-- The records of the scope `s'` are those of `s`. -/
structure Scope.SameRecords (s s' : Scope α) : Prop where
  scored_eq : s'.journal.scoredTrials = s.journal.scoredTrials
  messages_eq : s'.journal.messages = s.journal.messages
  newBests_eq : s'.journal.newBests = s.journal.newBests
  improvements_eq : s'.statistics.bestImprovements = s.statistics.bestImprovements

namespace Scope.SameRecords

variable {s s' s'' : Scope α}

theorem refl (s : Scope α) : s.SameRecords s :=
  ⟨rfl, rfl, rfl, rfl⟩

theorem trans (h : s.SameRecords s') (h' : s'.SameRecords s'') : s.SameRecords s'' :=
  ⟨h'.scored_eq.trans h.scored_eq, h'.messages_eq.trans h.messages_eq,
    h'.newBests_eq.trans h.newBests_eq, h'.improvements_eq.trans h.improvements_eq⟩

end Scope.SameRecords

/-- The entry is none of a record, and no answer to a poll. -/
def Entry.Discreet : Entry α → Prop
  | .scored _ | .sent _ | .noted (.newBest _ _) | .polled _ _ => False
  | _ => True

theorem Scope.sameRecords_push (s : Scope α) (entry : Entry α) (h : entry.Discreet) :
    s.SameRecords { s with journal := s.journal.push entry } := by
  cases entry with
  | scored t => exact h.elim
  | sent t => exact h.elim
  | polled stop drawn => exact h.elim
  | noted note =>
      cases note with
      | newBest trial cost => exact h.elim
      | _ =>
          refine ⟨?_, ?_, ?_, rfl⟩ <;>
            simp [Journal.scoredTrials, Journal.messages, Journal.newBests, Journal.log]
  | task event =>
      refine ⟨?_, ?_, ?_, rfl⟩ <;>
        simp [Journal.scoredTrials, Journal.messages, Journal.newBests, Journal.log]

namespace Run

/-- Whatever its result, the step leaves the records alone. -/
def Discreet (m : Run α β) : Prop :=
  ∀ s b s', m s = .ok (b, s') → s.SameRecords s'

theorem discreet_pure (b : β) : Discreet (pure b : Run α β) := by
  intro s b' s' h
  cases h
  exact .refl s

theorem Discreet.bind {m : Run α γ} {f : γ → Run α β} (hm : m.Discreet)
    (hf : ∀ c, (f c).Discreet) : (m >>= f).Discreet := by
  intro s b s' h
  obtain ⟨c, s₁, hfirst, hrest⟩ := bind_eq_ok h
  exact (hm s c s₁ hfirst).trans (hf c s₁ b s' hrest)

theorem discreet_check (x : Except Fault β) : Discreet (check x : Run α β) := by
  intro s b s' h
  cases x with
  | ok c =>
      cases h
      exact .refl s
  | error fault => exact nomatch h

theorem discreet_enter {entry : Entry α} (hentry : entry.Discreet) : (enter entry).Discreet := by
  intro s b s' h
  cases h
  exact s.sameRecords_push entry hentry

theorem discreet_begin (task : Task) : (begin task : Run α Unit).Discreet :=
  discreet_enter trivial

theorem discreet_finish (task : Task) : (finish task : Run α Unit).Discreet :=
  discreet_enter trivial

theorem discreet_poll : (poll : Run α Bool).Discreet := by
  intro s b s' h
  cases h
  refine ⟨?_, ?_, ?_, rfl⟩ <;>
    simp [Journal.scoredTrials, Journal.messages, Journal.newBests, Journal.log]

theorem discreet_draw (low high : Nat) : (draw low high : Run α Nat).Discreet := by
  intro s b s' h
  rw [draw] at h
  cases hrange : s.stream.range low high with
  | ok r =>
      rw [hrange] at h
      cases h
      exact ⟨rfl, rfl, rfl, rfl⟩
  | error fault =>
      rw [hrange] at h
      cases h

theorem discreet_split : (split : Run α Random.Stream).Discreet := by
  intro s b s' h
  cases h
  exact ⟨rfl, rfl, rfl, rfl⟩

theorem discreet_count {change : Statistics → Statistics}
    (hsame : ∀ x, (change x).bestImprovements = x.bestImprovements) :
    (count change : Run α Unit).Discreet := by
  intro s b s' h
  cases h
  exact ⟨rfl, rfl, rfl, hsame s.statistics⟩

theorem discreet_concurrency : (concurrency : Run α Nat).Discreet := by
  intro s b s' h
  cases h
  exact .refl s

/-- The step is put together from draws and checked computations. -/
inductive Silent : {β : Type} → Run α β → Prop
  | pure {β : Type} (b : β) : Silent (Pure.pure b)
  | bind {β γ : Type} {m : Run α γ} {f : γ → Run α β} (hm : Silent m) (hf : ∀ c, Silent (f c)) :
      Silent (m >>= f)
  | check {β : Type} (x : Except Fault β) : Silent (Run.check x)
  | draw (low high : Nat) : Silent (Run.draw low high)
  | split : Silent Run.split

/-- The step is put together from primitive ones, without a look at the number of workers and
without an addition to the records. -/
inductive Plain : {β : Type} → Run α β → Prop
  | pure {β : Type} (b : β) : Plain (Pure.pure b)
  | bind {β γ : Type} {m : Run α γ} {f : γ → Run α β} (hm : Plain m) (hf : ∀ c, Plain (f c)) :
      Plain (m >>= f)
  | check {β : Type} (x : Except Fault β) : Plain (Run.check x)
  | draw (low high : Nat) : Plain (Run.draw low high)
  | split : Plain Run.split
  | poll : Plain Run.poll
  | enter (entry : Entry α) (hentry : entry.Discreet) : Plain (Run.enter entry)
  | count (change : Statistics → Statistics)
      (hsame : ∀ x, (change x).bestImprovements = x.bestImprovements) : Plain (Run.count change)

theorem Silent.plain {m : Run α β} (h : m.Silent) : m.Plain := by
  induction h with
  | pure b => exact .pure b
  | bind hm hf ihm ihf => exact ihm.bind ihf
  | check x => exact .check x
  | draw low high => exact .draw low high
  | split => exact .split

theorem Plain.begin (task : Task) : (Run.begin task : Run α Unit).Plain :=
  .enter _ trivial

theorem Plain.finish (task : Task) : (Run.finish task : Run α Unit).Plain :=
  .enter _ trivial

theorem Plain.discreet {m : Run α β} (h : m.Plain) : m.Discreet := by
  induction h with
  | pure b => exact discreet_pure b
  | bind hm hf ihm ihf => exact ihm.bind ihf
  | check x => exact discreet_check x
  | draw low high => exact discreet_draw low high
  | split => exact discreet_split
  | poll => exact discreet_poll
  | enter entry hentry => exact discreet_enter hentry
  | count change hsame => exact discreet_count hsame

end Run

open Run

/-! ### Constructions -/

/-- The construction fills its buffers and may announce what it does, but scores and sends
nothing. -/
def Construction.Discreet (c : Construction α) : Prop :=
  ∀ g minSizes trial assignment tally, (c.build g minSizes trial assignment tally).Discreet

namespace Reservation

theorem takeMany_silent {community count : Nat} {r : Reservation} :
    (takeMany community count r : Run α Reservation).Silent := by
  induction count generalizing r with
  | zero => exact .pure r
  | succ count ih =>
      rw [takeMany]
      refine (Silent.draw _ _).bind fun pick => ?_
      exact (Silent.check _).bind fun r => ih

theorem takeMinimums_silent {community : Nat} {minSizes : List Nat}
    {state : Reservation × Tally} :
    (takeMinimums community minSizes state : Run α (Reservation × Tally)).Silent := by
  induction minSizes generalizing community state with
  | nil => exact .pure state
  | cons minSize rest ih =>
      rw [takeMinimums]
      refine (Silent.check _).bind fun free => ?_
      refine takeMany_silent.bind fun r => ?_
      exact (Silent.check _).bind fun tally => ih

end Reservation

namespace RandomPlacement

theorem splitStreams_silent {partitions : List Partition} :
    (splitStreams partitions : Run α (List (Partition × Random.Stream))).Silent := by
  induction partitions with
  | nil => exact .pure []
  | cons p rest ih =>
      rw [splitStreams]
      refine Silent.split.bind fun stream => ?_
      exact ih.bind fun tasks => .pure _

end RandomPlacement

/-- Random placement asks for the number of workers once, before it draws the free nodes. -/
theorem Construction.discreet_random (minBatch : Nat) :
    (Construction.random minBatch : Construction α).Discreet := by
  intro g minSizes trial assignment tally
  show (RandomPlacement.build _ g minSizes assignment tally).Discreet
  rw [RandomPlacement.build, RandomPlacement.buildIn]
  refine (discreet_begin _).bind fun _ => ?_
  refine Reservation.takeMinimums_silent.plain.discreet.bind fun _ => ?_
  refine (discreet_check _).bind fun _ => ?_
  refine discreet_concurrency.bind fun _ => Plain.discreet ?_
  refine RandomPlacement.splitStreams_silent.plain.bind fun _ => ?_
  refine (Plain.check _).bind fun _ => ?_
  refine (Plain.enter _ (by trivial)).bind fun _ => ?_
  refine (Plain.finish _).bind fun _ => ?_
  exact .pure _

theorem Construction.discreet_prepared (assignments : Array Assignment) :
    (Construction.prepared assignments : Construction α).Discreet :=
  fun _ _ _ _ _ => discreet_check _

/-! ### Searches -/

variable [Weight α]

namespace LocalSearch

variable (ls : LocalSearch α)

theorem round_plain {order : List Partition} {p : Progress α} :
    (ls.round order p).Plain := by
  rw [round]
  refine (Plain.begin _).bind fun _ => ?_
  refine (Plain.check _).bind fun _ => ?_
  refine (Plain.finish _).bind fun _ => ?_
  refine (Plain.begin _).bind fun _ => ?_
  refine (Plain.check _).bind fun _ => ?_
  refine (Plain.check _).bind fun _ => ?_
  refine (Plain.finish _).bind fun _ => ?_
  refine (Plain.enter _ (by trivial)).bind fun _ => ?_
  exact .pure _

theorem converge_plain {schedule : Schedule} {bound : Nat} {p : Progress α} :
    (ls.converge schedule bound p).Plain := by
  induction bound generalizing p with
  | zero =>
      rw [converge]
      split
      · exact .check _
      · exact .pure p
  | succ bound ih =>
      rw [converge]
      split
      · refine Plain.poll.bind fun stop => ?_
        split
        · exact .pure p
        · exact ls.round_plain.bind fun p => ih
      · exact .pure p

theorem evaluateIn_plain {order : List Partition} {a : Assignment} :
    (ls.evaluateIn order a).Plain := by
  rw [evaluateIn]
  refine (Plain.begin _).bind fun _ => ?_
  refine (Plain.check _).bind fun _ => ?_
  refine (Plain.finish _).bind fun _ => ?_
  exact .pure _

theorem compute_plain {workspace : Workspace α} {c : Candidate α} :
    (ls.compute workspace c).Plain := by
  rw [compute, computeOn]
  refine (Plain.begin _).bind fun _ => ?_
  refine (Plain.begin _).bind fun _ => ?_
  refine ls.converge_plain.bind fun p => ?_
  refine (Plain.finish _).bind fun _ => ?_
  refine ls.evaluateIn_plain.bind fun _ => ?_
  refine (Plain.finish _).bind fun _ => ?_
  refine (Plain.count _ (by intro _; rfl)).bind fun _ => ?_
  exact .pure _

end LocalSearch

namespace NeighborhoodSearch

variable (vns : NeighborhoodSearch) (ls : LocalSearch α)

omit [Weight α] in
theorem attempt_silent {retries : Nat} {c : Candidate α} :
    (vns.attempt retries c).Silent := by
  induction retries generalizing c with
  | zero => exact .pure _
  | succ retries ih =>
      rw [attempt]
      refine (Silent.draw _ _).bind fun node => ?_
      refine (Silent.check _).bind fun current => ?_
      refine (Silent.check _).bind fun size => ?_
      refine (Silent.check _).bind fun least => ?_
      split
      · exact ih
      · refine (Silent.draw _ _).bind fun shift => ?_
        refine (Silent.check _).bind fun target => ?_
        refine (Silent.check _).bind fun assignment => ?_
        refine (Silent.check _).bind fun tally => ?_
        exact .pure _

omit [Weight α] in
theorem perturbMany_silent {count : Nat} {c : Candidate α} :
    (vns.perturbMany count c).Silent := by
  induction count generalizing c with
  | zero => exact .pure _
  | succ count ih =>
      rw [perturbMany, perturb]
      refine Silent.bind ?_ ?_
      · split
        · exact .pure _
        · exact vns.attempt_silent
      · rintro ⟨moved, c⟩
        dsimp only
        split
        · exact ih
        · exact .pure _

theorem round_plain {p : Progress α} : (vns.round ls p).Plain := by
  rw [round]
  refine (Plain.begin _).bind fun _ => ?_
  refine (Plain.check _).bind fun _ => ?_
  refine vns.perturbMany_silent.plain.bind fun _ => ?_
  refine ls.compute_plain.bind fun _ => ?_
  refine (Plain.count _ (by intro _; rfl)).bind fun _ => ?_
  refine (Plain.enter _ (by trivial)).bind fun _ => ?_
  refine (Plain.finish _).bind fun _ => ?_
  exact .pure _

theorem search_plain {bound : Nat} {p : Progress α} : (vns.search ls bound p).Plain := by
  induction bound generalizing p with
  | zero =>
      rw [search]
      split
      · exact .check _
      · exact .pure p
  | succ bound ih =>
      rw [search]
      split
      · refine Plain.poll.bind fun stop => ?_
        split
        · exact .pure p
        · refine (vns.round_plain ls).bind ?_
          rintro ⟨perturbed, p⟩
          dsimp only
          split
          · exact ih
          · refine (Plain.count _ (by intro _; rfl)).bind fun _ => ?_
            exact .pure _
      · exact .pure p

/-- **A neighborhood search leaves the records alone.** -/
theorem compute_plain {workspace : Workspace α} {neighbor best : Candidate α} :
    (vns.compute ls workspace neighbor best).Plain := by
  rw [compute]
  split
  · refine ls.compute_plain.bind fun _ => ?_
    exact .pure _
  · refine (Plain.begin _).bind fun _ => ?_
    refine (vns.search_plain ls).bind fun _ => ?_
    refine (Plain.finish _).bind fun _ => ?_
    refine (Plain.enter _ (by trivial)).bind fun _ => ?_
    exact .pure _

end NeighborhoodSearch

end KCut
