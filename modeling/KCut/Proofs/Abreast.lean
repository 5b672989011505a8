import KCut.Proofs.Discreet
import KCut.Proofs.Ensures
import KCut.Solver

/-!
# KCut.Proofs.Abreast

Two runs of the same steps, the first of which is never stopped.

All steps of a run are put together from primitive ones (`Run.Composed`), and these only add
entries to the journal (`Composed.later`). Of the primitive steps only a poll can tell two runs
apart that stand at the same word of the same stream. So two such runs make the same entries as
long as no poll stops the second one, and up to the first poll that does
(`Composed.inStep_or_apart`).
-/

namespace KCut

variable {α β γ : Type}

/-! ### Composed steps -/

/-- The answer that an entry records, if it is one of a poll. -/
def Entry.stop? : Entry α → Option Bool
  | .polled stop _ => some stop
  | _ => none

namespace Journal

theorem answers_eq_filterMap (j : Journal α) : j.answers = j.toList.filterMap Entry.stop? := rfl

@[simp] theorem answers_append (j j' : Journal α) :
    Journal.answers (j ++ j') = j.answers ++ j'.answers := by
  simp [answers]

end Journal

namespace Run

/-- The step is put together from primitive ones. -/
inductive Composed : {β : Type} → Run α β → Prop
  | pure {β : Type} (b : β) : Composed (Pure.pure b)
  | bind {β γ : Type} {m : Run α γ} {f : γ → Run α β} (hm : Composed m)
      (hf : ∀ c, Composed (f c)) : Composed (m >>= f)
  | check {β : Type} (x : Except Fault β) : Composed (Run.check x)
  | draw (low high : Nat) : Composed (Run.draw low high)
  | split : Composed Run.split
  | concurrency : Composed Run.concurrency
  | poll : Composed Run.poll
  | enter (entry : Entry α) (hentry : entry.stop? = none) : Composed (Run.enter entry)
  | count (change : Statistics → Statistics) : Composed (Run.count change)

theorem Composed.begin (task : Task) : (Run.begin task : Run α Unit).Composed :=
  .enter _ rfl

theorem Composed.finish (task : Task) : (Run.finish task : Run α Unit).Composed :=
  .enter _ rfl

theorem Composed.note (n : Note α) : (Run.note n).Composed :=
  .enter _ rfl

end Run

/-- The scope `s'` is `s` some steps later, which have made the entries `j`. -/
structure Scope.Later (s : Scope α) (j : Journal α) (s' : Scope α) : Prop where
  concurrency_eq : s'.concurrency = s.concurrency
  journal_eq : s'.journal = s.journal ++ j
  asked : s.termination.Answers j.answers s'.termination

namespace Scope.Later

variable {s s' s'' : Scope α} {j j' : Journal α}

theorem refl (s : Scope α) : s.Later #[] s :=
  ⟨rfl, Array.append_empty.symm, .refl _⟩

theorem trans (h : s.Later j s') (h' : s'.Later j' s'') : s.Later (j ++ j') s'' where
  concurrency_eq := h'.concurrency_eq.trans h.concurrency_eq
  journal_eq := by rw [h'.journal_eq, h.journal_eq, Array.append_assoc]
  asked := by
    rw [Journal.answers_append]
    exact h.asked.trans h'.asked

theorem entered (s : Scope α) {entry : Entry α} (hentry : entry.stop? = none) :
    s.Later #[entry] { s with journal := s.journal.push entry } where
  concurrency_eq := rfl
  journal_eq := by rw [Array.push_eq_append]
  asked := by
    rw [Journal.answers_eq_filterMap]
    simpa [hentry] using Termination.Answers.refl s.termination

theorem polled (s : Scope α) :
    s.Later #[.polled s.termination.poll.1 s.stream.position] { s with
      termination := s.termination.poll.2
      journal := s.journal.push (.polled s.termination.poll.1 s.stream.position) } where
  concurrency_eq := rfl
  journal_eq := by rw [Array.push_eq_append]
  asked := by
    have hanswers : Journal.answers #[Entry.polled (α := α) s.termination.poll.1
      s.stream.position] = [s.termination.poll.1] := rfl
    rw [hanswers]
    exact .head (.refl _)

/-- Nothing is entered by a draw. -/
theorem restreamed (h : s.Later j s') (stream : Random.Stream) :
    s.Later j { s' with stream } :=
  ⟨h.concurrency_eq, h.journal_eq, h.asked⟩

theorem recounted (h : s.Later j s') (statistics : Statistics) :
    s.Later j { s' with statistics } :=
  ⟨h.concurrency_eq, h.journal_eq, h.asked⟩

/-- Nothing stops a run that never has to stop, nor will it later. -/
theorem running (h : s.Later j s') (hrunning : s.termination.NeverFires) :
    true ∉ j.answers ∧ s'.termination.NeverFires :=
  ⟨hrunning.answers h.asked, hrunning.of_answers h.asked⟩

end Scope.Later

namespace Run

theorem later_check (x : Except Fault β) (s : Scope α) :
    (check x).Ensures s fun _ s' => s.Later #[] s' :=
  ensures_check.2 fun _ _ => .refl s

/-- **Whatever steps are put together only add entries**, besides asking the condition. -/
theorem Composed.later {m : Run α β} (h : m.Composed) (s : Scope α) :
    m.Ensures s fun _ s' => ∃ j, s.Later j s' := by
  induction h generalizing s with
  | pure b => exact ensures_pure.2 ⟨#[], .refl s⟩
  | bind hm hf ihm ihf =>
      refine ensures_bind.2 ((ihm s).mono fun c s₁ hfirst => (ihf c s₁).mono fun _ _ hrest => ?_)
      obtain ⟨j, hj⟩ := hfirst
      obtain ⟨j', hj'⟩ := hrest
      exact ⟨_, hj.trans hj'⟩
  | check x => exact (later_check x s).mono fun _ _ hx => ⟨_, hx⟩
  | draw low high => exact ensures_draw fun x stream => ⟨#[], (Scope.Later.refl s).restreamed stream⟩
  | split => exact ensures_split fun stream rest => ⟨#[], (Scope.Later.refl s).restreamed rest⟩
  | concurrency => exact ensures_concurrency.2 ⟨#[], .refl s⟩
  | poll => exact ensures_poll.2 ⟨_, .polled s⟩
  | enter entry hentry => exact ensures_enter.2 ⟨_, .entered s hentry⟩
  | count change => exact ensures_count.2 ⟨#[], (Scope.Later.refl s).recounted _⟩

end Run

/-! ### Two runs -/

/-- The runs stand at the same word of the same stream, and the first one never has to stop. -/
structure Scope.Abreast (s s' : Scope α) : Prop where
  concurrency_eq : s'.concurrency = s.concurrency
  stream_eq : s'.stream = s.stream
  running : s.termination.NeverFires

/-- Both runs have made the entries `j` since they stood at `s` and `s'`, and have drawn the
same words. -/
structure Scope.InStep (s s' : Scope α) (j : Journal α) (t t' : Scope α) : Prop where
  later : s.Later j t
  later' : s'.Later j t'
  stream_eq : t'.stream = t.stream

/-- The entries of two runs are the same up to a poll that stops the second one. -/
def Journal.Parted (j j' : Journal α) : Prop :=
  ∃ (i : Journal α) (drawn : Nat) (rest rest' : Journal α),
    j = i ++ #[.polled false drawn] ++ rest ∧ j' = i ++ #[.polled true drawn] ++ rest'

/-- The second run was stopped since the two stood at `s` and `s'`, and they have made the same
entries up to there. -/
def Scope.Apart (s s' t t' : Scope α) : Prop :=
  ∃ j j', s.Later j t ∧ s'.Later j' t' ∧ Journal.Parted j j'

namespace Journal.Parted

variable {j j' : Journal α}

theorem append (h : Parted j j') (k k' : Journal α) : Parted (j ++ k) (j' ++ k') := by
  obtain ⟨i, drawn, rest, rest', rfl, rfl⟩ := h
  exact ⟨i, drawn, rest ++ k, rest' ++ k', Array.append_assoc, Array.append_assoc⟩

theorem prepend (h : Parted j j') (k : Journal α) : Parted (k ++ j) (k ++ j') := by
  obtain ⟨i, drawn, rest, rest', rfl, rfl⟩ := h
  refine ⟨k ++ i, drawn, rest, rest', ?_, ?_⟩
  · simp only [Array.append_assoc]
  · simp only [Array.append_assoc]

end Journal.Parted

namespace Scope

variable {s s' t t' u u' : Scope α} {j j' : Journal α}

namespace InStep

theorem abreast (h : InStep s s' j t t') (hs : s.Abreast s') : t.Abreast t' where
  concurrency_eq := by
    rw [h.later'.concurrency_eq, hs.concurrency_eq, h.later.concurrency_eq]
  stream_eq := h.stream_eq
  running := (h.later.running hs.running).2

theorem trans (h : InStep s s' j t t') (h' : InStep t t' j' u u') :
    InStep s s' (j ++ j') u u' :=
  ⟨h.later.trans h'.later, h.later'.trans h'.later', h'.stream_eq⟩

/-- Runs that were in step so far may part. -/
theorem apart (h : InStep s s' j t t') (h' : Apart t t' u u') : Apart s s' u u' := by
  obtain ⟨k, k', hk, hk', hparted⟩ := h'
  exact ⟨_, _, h.later.trans hk, h.later'.trans hk', hparted.prepend j⟩

end InStep

/-- Runs that have parted are never in step again. -/
theorem Apart.trans (h : Apart s s' t t') (hu : t.Later j u) (hu' : t'.Later j' u') :
    Apart s s' u u' := by
  obtain ⟨k, k', hk, hk', hparted⟩ := h
  exact ⟨_, _, hk.trans hu, hk'.trans hu', hparted.append _ _⟩

/-- A poll keeps the runs in step, or it stops the second one. -/
theorem Abreast.poll (hs : s.Abreast s') {x x' : Bool} (h : Run.poll s = .ok (x, t))
    (h' : Run.poll s' = .ok (x', t')) : (x' = x ∧ ∃ j, InStep s s' j t t') ∨ Apart s s' t t' := by
  have hlater := Later.polled s
  have hlater' := Later.polled s'
  cases h
  cases h'
  rw [hs.stream_eq] at hlater' ⊢
  rw [hs.running.poll.1] at hlater ⊢
  cases hstop : s'.termination.poll.1 with
  | false =>
      rw [hstop] at hlater'
      exact Or.inl ⟨rfl, _, hlater, hlater', rfl⟩
  | true =>
      rw [hstop] at hlater'
      exact Or.inr ⟨_, _, hlater, hlater', #[], _, #[], #[], rfl, rfl⟩

end Scope

namespace Run

/-- **Two runs of composed steps** go the same way, unless the second one is stopped. -/
theorem Composed.inStep_or_apart {m : Run α β} (hm : m.Composed) {s s' t t' : Scope α} {x x' : β}
    (hs : s.Abreast s') (h : m s = .ok (x, t)) (h' : m s' = .ok (x', t')) :
    (x' = x ∧ ∃ j, Scope.InStep s s' j t t') ∨ Scope.Apart s s' t t' := by
  induction hm generalizing s s' t t' with
  | pure b =>
      cases h
      cases h'
      exact Or.inl ⟨rfl, _, .refl s, .refl s', hs.stream_eq⟩
  | bind hm hf ihm ihf =>
      obtain ⟨c, s₁, hfirst, hrest⟩ := bind_eq_ok h
      obtain ⟨c', s₁', hfirst', hrest'⟩ := bind_eq_ok h'
      rcases ihm hs hfirst hfirst' with ⟨rfl, j, hstep⟩ | hapart
      · rcases ihf _ (hstep.abreast hs) hrest hrest' with ⟨rfl, k, hstep'⟩ | hapart
        · exact Or.inl ⟨rfl, _, hstep.trans hstep'⟩
        · exact Or.inr (hstep.apart hapart)
      · obtain ⟨k, hk⟩ := (hf c).later _ _ _ hrest
        obtain ⟨k', hk'⟩ := (hf c').later _ _ _ hrest'
        exact Or.inr (hapart.trans hk hk')
  | check y =>
      cases y with
      | ok b =>
          cases h
          cases h'
          exact Or.inl ⟨rfl, _, .refl s, .refl s', hs.stream_eq⟩
      | error fault => cases h
  | draw low high =>
      rw [Run.draw] at h h'
      rw [hs.stream_eq] at h'
      cases hrange : s.stream.range low high with
      | ok r =>
          rw [hrange] at h h'
          cases h
          cases h'
          exact Or.inl ⟨rfl, #[], (Scope.Later.refl s).restreamed _,
            (Scope.Later.refl s').restreamed _, rfl⟩
      | error fault =>
          rw [hrange] at h
          cases h
  | split =>
      rw [Run.split] at h h'
      rw [hs.stream_eq] at h'
      cases h
      cases h'
      exact Or.inl ⟨rfl, #[], (Scope.Later.refl s).restreamed _,
        (Scope.Later.refl s').restreamed _, rfl⟩
  | concurrency =>
      cases h
      cases h'
      exact Or.inl ⟨hs.concurrency_eq, _, .refl s, .refl s', hs.stream_eq⟩
  | poll => exact hs.poll h h'
  | enter entry hentry =>
      cases h
      cases h'
      exact Or.inl ⟨rfl, _, .entered s hentry, .entered s' hentry, hs.stream_eq⟩
  | count change =>
      cases h
      cases h'
      exact Or.inl ⟨rfl, #[], (Scope.Later.refl s).recounted _,
        (Scope.Later.refl s').recounted _, hs.stream_eq⟩

end Run

/-! ### The parts of a run -/

theorem Entry.Discreet.stop?_eq {entry : Entry α} (h : entry.Discreet) : entry.stop? = none := by
  cases entry with
  | polled stop drawn => exact h.elim
  | _ => rfl

theorem Run.Plain.composed {m : Run α β} (h : m.Plain) : m.Composed := by
  induction h with
  | pure b => exact .pure b
  | bind hm hf ihm ihf => exact ihm.bind ihf
  | check x => exact .check x
  | draw low high => exact .draw low high
  | split => exact .split
  | poll => exact .poll
  | enter entry hentry => exact .enter entry hentry.stop?_eq
  | count change hsame => exact .count change

theorem RandomPlacement.build_composed (minBatch : Nat) (g : Graph α) (minSizes : Array Nat)
    (a : Assignment) (t : Tally) : (build minBatch g minSizes a t).Composed := by
  rw [build, buildIn]
  refine (Run.Composed.begin _).bind fun _ => ?_
  refine Reservation.takeMinimums_silent.plain.composed.bind fun _ => ?_
  refine (Run.Composed.check _).bind fun _ => ?_
  refine Run.Composed.concurrency.bind fun _ => ?_
  refine splitStreams_silent.plain.composed.bind fun _ => ?_
  refine (Run.Composed.check _).bind fun _ => ?_
  refine (Run.Composed.note _).bind fun _ => ?_
  refine (Run.Composed.finish _).bind fun _ => ?_
  exact .pure _

namespace Solver

open Run (Composed)

/-- The first candidates of the trials are built by composed steps. -/
def Builds (s : Solver α) : Prop :=
  ∀ g minSizes trial a t, (s.construction.build g minSizes trial a t).Composed

theorem builds_of_random {s : Solver α} {minBatch : Nat} (h : s.construction = .random minBatch) :
    s.Builds := by
  intro g minSizes trial a t
  rw [h]
  exact RandomPlacement.build_composed _ g minSizes a t

variable {s : Solver α}

theorem construct_composed (hbuilds : s.Builds) (index : Nat) (b : Buffers α) :
    (s.construct index b).Composed := by
  rw [construct]
  exact (hbuilds _ _ _ _ _).bind fun _ => .pure _

variable [Weight α]

theorem score_composed (b : Buffers α) : (s.score b).Composed := by
  rw [score]
  exact s.localSearch.evaluateIn_plain.composed.bind fun _ => .pure _

theorem improve_composed (b : Buffers α) : (s.improve b).Composed := by
  rw [improve]
  exact (s.neighborhoodSearch.compute_plain _).composed.bind fun _ => .pure _

theorem compete_composed (index : Nat) (b : Buffers α) : (s.compete index b).Composed := by
  rw [compete]
  refine (Composed.enter _ rfl).bind fun _ => ?_
  split
  split
  · refine (Composed.count _).bind fun _ => ?_
    refine (Composed.note _).bind fun _ => ?_
    refine (Composed.enter _ rfl).bind fun _ => ?_
    exact .pure _
  · exact .pure _

theorem trial_composed (hbuilds : s.Builds) (index : Nat) (b : Buffers α) :
    (s.trial index b).Composed := by
  rw [trial]
  refine (Composed.begin _).bind fun _ => ?_
  refine (construct_composed hbuilds index b).bind fun b₁ => ?_
  refine Composed.poll.bind fun stop => ?_
  split
  · refine (score_composed b₁).bind fun b₂ => ?_
    refine (compete_composed index b₂).bind fun _ => ?_
    exact (Composed.finish _).bind fun _ => .pure _
  · refine (improve_composed b₁).bind fun b₂ => ?_
    refine (compete_composed index b₂).bind fun _ => ?_
    refine (Composed.count _).bind fun _ => ?_
    refine (Composed.note _).bind fun _ => ?_
    exact (Composed.finish _).bind fun _ => .pure _

theorem trials_composed (hbuilds : s.Builds) (remaining index : Nat) (b : Buffers α) :
    (s.trials remaining index b).Composed := by
  induction remaining generalizing index b with
  | zero => exact .pure b
  | succ remaining ih =>
      rw [trials]
      refine Composed.poll.bind fun stop => ?_
      split
      · exact .pure b
      refine (trial_composed hbuilds index b).bind ?_
      rintro ⟨goOn, b⟩
      cases goOn with
      | true => exact ih _ b
      | false => exact .pure b

end Solver

end KCut
