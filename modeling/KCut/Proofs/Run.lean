import KCut.Proofs.Termination
import KCut.Run

/-!
# KCut.Proofs.Run

Total correctness of the steps of a run.

`Gives m s post` says that the step `m` has a result in the scope `s`, and that
`post` holds of it and of the scope after it. One rule per primitive step and one
for sequences take a step apart from the front (`gives_bind`), so a proof about a
step is a walk through its text. `GivesOr` is the same for steps that may end in
certain faults.

`Scope.Polled` says which polls a step has made, and `Scope.Quiet` what else it
has done to the scope as far as the answer of a run depends on it.
-/

namespace KCut

variable {α β γ : Type}

namespace Run

/-- The step has a result in the scope `s`, and `post` holds of it and of the
scope after it. -/
def Gives (m : Run α β) (s : Scope α) (post : β → Scope α → Prop) : Prop :=
  ∃ b s', m s = .ok (b, s') ∧ post b s'

variable {s : Scope α} {post : β → Scope α → Prop}

theorem Gives.mono {m : Run α β} {post' : β → Scope α → Prop} (h : Gives m s post)
    (himp : ∀ b s', post b s' → post' b s') : Gives m s post' := by
  obtain ⟨b, s', hm, hpost⟩ := h
  exact ⟨b, s', hm, himp b s' hpost⟩

/-- A step whose outcome is known. -/
theorem gives_iff_of_eq {m : Run α β} {b : β} {s' : Scope α} (hm : m s = .ok (b, s')) :
    Gives m s post ↔ post b s' := by
  constructor
  · intro hgives
    obtain ⟨b', s'', hm', hpost⟩ := hgives
    rw [hm] at hm'
    cases hm'
    exact hpost
  · exact fun hpost => ⟨b, s', hm, hpost⟩

@[simp] theorem gives_pure {b : β} : Gives (pure b) s post ↔ post b s :=
  gives_iff_of_eq rfl

/-- Of its first step, a sequence needs the result and the scope after it. -/
theorem bind_congr {m m' : Run α γ} {s' : Scope α} (h : m s = m' s') (f : γ → Run α β) :
    (m >>= f) s = (m' >>= f) s' :=
  congrArg (fun x : Except Fault (γ × Scope α) => x >>= fun r => f r.1 r.2) h

theorem bind_of_eq_ok {m : Run α γ} {c : γ} {s' : Scope α} (h : m s = .ok (c, s'))
    (f : γ → Run α β) : (m >>= f) s = f c s' :=
  bind_congr (show m s = (pure c : Run α γ) s' from h) f

/-- A result of a sequence comes from a result of its first step. -/
theorem bind_eq_ok {m : Run α γ} {f : γ → Run α β} {b : β} {s' : Scope α}
    (h : (m >>= f) s = .ok (b, s')) : ∃ c s₁, m s = .ok (c, s₁) ∧ f c s₁ = .ok (b, s') := by
  have hbind : (m >>= f) s = (m s >>= fun r => f r.1 r.2) := rfl
  rw [hbind] at h
  cases hm : m s with
  | error fault =>
      rw [hm] at h
      exact nomatch h
  | ok r =>
      rw [hm] at h
      exact ⟨r.1, r.2, rfl, h⟩

@[simp] theorem gives_bind {m : Run α γ} {f : γ → Run α β} :
    Gives (m >>= f) s post ↔ Gives m s fun c s' => Gives (f c) s' post := by
  constructor
  · intro hgives
    obtain ⟨b, s', hm, hpost⟩ := hgives
    obtain ⟨c, s₁, hfirst, hrest⟩ := bind_eq_ok hm
    exact ⟨c, s₁, hfirst, b, s', hrest, hpost⟩
  · intro hgives
    obtain ⟨c, s₁, hfirst, b, s', hm, hpost⟩ := hgives
    have hbind : (m >>= f) s = (m s >>= fun r => f r.1 r.2) := rfl
    exact ⟨b, s', by rw [hbind, hfirst]; exact hm, hpost⟩

@[simp] theorem gives_enter {entry : Entry α} {post : Unit → Scope α → Prop} :
    Gives (enter entry) s post ↔ post () { s with journal := s.journal.push entry } :=
  gives_iff_of_eq rfl

@[simp] theorem gives_begin {task : Task} {post : Unit → Scope α → Prop} :
    Gives (begin task) s post ↔
      post () { s with journal := s.journal.push (.task (.began task)) } :=
  gives_enter

@[simp] theorem gives_finish {task : Task} {post : Unit → Scope α → Prop} :
    Gives (finish task) s post ↔
      post () { s with journal := s.journal.push (.task (.ended task)) } :=
  gives_enter

@[simp] theorem gives_note {n : Note α} {post : Unit → Scope α → Prop} :
    Gives (note n) s post ↔ post () { s with journal := s.journal.push (.noted n) } :=
  gives_enter

@[simp] theorem gives_count {f : Statistics → Statistics} {post : Unit → Scope α → Prop} :
    Gives (count f) s post ↔ post () { s with statistics := f s.statistics } :=
  gives_iff_of_eq rfl

@[simp] theorem gives_concurrency {post : Nat → Scope α → Prop} :
    Gives concurrency s post ↔ post s.concurrency s :=
  gives_iff_of_eq rfl

@[simp] theorem gives_poll {post : Bool → Scope α → Prop} :
    Gives poll s post ↔ post s.termination.poll.1 { s with
      termination := s.termination.poll.2
      journal := s.journal.push (.polled s.termination.poll.1 s.stream.position) } :=
  gives_iff_of_eq rfl

/-- A stream is split off; nothing else of the scope changes. -/
theorem gives_split {stream rest : Random.Stream} (hsplit : s.stream.split = (stream, rest))
    {post : Random.Stream → Scope α → Prop} :
    Gives split s post ↔ post stream { s with stream := rest } :=
  gives_iff_of_eq (by rw [split, hsplit])

/-- A checked computation with a result changes nothing. -/
theorem gives_check {x : Except Fault β} {b : β} (hx : x = .ok b) :
    Gives (check x) s post ↔ post b s :=
  gives_iff_of_eq (by rw [hx]; rfl)

/-- A draw moves the stream on. -/
theorem gives_draw {low high x : Nat} {stream : Random.Stream}
    (hx : s.stream.range low high = .ok (x, stream)) {post : Nat → Scope α → Prop} :
    Gives (draw low high) s post ↔ post x { s with stream } :=
  gives_iff_of_eq (by rw [draw, hx])

/-- The step has a result as `Gives` says, or it ends in an allowed fault. -/
def GivesOr (allowed : Fault → Prop) (m : Run α β) (s : Scope α)
    (post : β → Scope α → Prop) : Prop :=
  Gives m s post ∨ ∃ fault, m s = .error fault ∧ allowed fault

variable {allowed allowed' : Fault → Prop}

theorem GivesOr.mono {m : Run α β} {post' : β → Scope α → Prop} (h : GivesOr allowed m s post)
    (himp : ∀ b s', post b s' → post' b s') : GivesOr allowed m s post' :=
  h.imp_left fun hgives => hgives.mono himp

/-- More faults may be allowed than a step can end in. -/
theorem GivesOr.allow {m : Run α β} (h : GivesOr allowed m s post)
    (himp : ∀ fault, allowed fault → allowed' fault) : GivesOr allowed' m s post :=
  h.imp_right fun ⟨fault, hm, hallowed⟩ => ⟨fault, hm, himp fault hallowed⟩

/-- A fault of the first step is a fault of the sequence. -/
theorem GivesOr.bind {m : Run α γ} {f : γ → Run α β} {mid : γ → Scope α → Prop}
    (h : GivesOr allowed m s mid) (hf : ∀ c s', mid c s' → GivesOr allowed (f c) s' post) :
    GivesOr allowed (m >>= f) s post := by
  have hbind : (m >>= f) s = (m s >>= fun r => f r.1 r.2) := rfl
  rcases h with ⟨c, s', hm, hmid⟩ | ⟨fault, hm, hallowed⟩
  · rcases hf c s' hmid with hgives | ⟨fault, hnext, hallowed⟩
    · exact Or.inl (gives_bind.2 ⟨c, s', hm, hgives⟩)
    · exact Or.inr ⟨fault, by rw [hbind, hm]; exact hnext, hallowed⟩
  · exact Or.inr ⟨fault, by rw [hbind, hm]; rfl, hallowed⟩

/-- A step that cannot fail in front of one that may. -/
theorem Gives.bindOr {m : Run α γ} {f : γ → Run α β}
    (h : Gives m s fun c s' => GivesOr allowed (f c) s' post) :
    GivesOr allowed (m >>= f) s post :=
  GivesOr.bind (Or.inl h) fun _ _ hnext => hnext

/-- A checked computation that may fail, and what follows if it does not. -/
theorem GivesOr.check {x : Except Fault γ} {f : γ → Run α β}
    (h : (∃ c, x = .ok c ∧ GivesOr allowed (f c) s post) ∨
      ∃ fault, x = .error fault ∧ allowed fault) :
    GivesOr allowed (Run.check x >>= f) s post := by
  rcases h with ⟨c, hx, hnext⟩ | ⟨fault, hx, hallowed⟩
  · exact Gives.bindOr ((gives_check hx).2 hnext)
  · exact Or.inr ⟨fault, by rw [hx]; rfl, hallowed⟩

end Run

/-! ### Steps that score no trial -/

@[simp] theorem Statistics.bestImprovements_recordVnsRound (s : Statistics) (improved : Bool) :
    (s.recordVnsRound improved).bestImprovements = s.bestImprovements := rfl

@[simp] theorem Statistics.bestImprovements_recordTrial (s : Statistics) :
    s.recordTrial.bestImprovements = s.bestImprovements := rfl

/-- The scope `s'` is `s` some steps later: the condition was polled in between and
gave the answers `polls`, which are in the journal. -/
structure Scope.Polled (s : Scope α) (polls : List Bool) (s' : Scope α) : Prop where
  answers_eq : s'.journal.answers = s.journal.answers ++ polls
  asked : s.termination.Answers polls s'.termination

namespace Scope.Polled

variable {s s' s'' : Scope α} {polls more : List Bool}

theorem refl (s : Scope α) : s.Polled [] s :=
  ⟨(List.append_nil _).symm, .refl _⟩

theorem trans (h : s.Polled polls s') (h' : s'.Polled more s'') :
    s.Polled (polls ++ more) s'' where
  answers_eq := by rw [h'.answers_eq, h.answers_eq, List.append_assoc]
  asked := h.asked.trans h'.asked

end Scope.Polled

/-- The scope `s'` is `s` some steps later: the polls in between gave the answers
`polls`, and no trial was scored or became the best one. -/
structure Scope.Quiet (s : Scope α) (polls : List Bool) (s' : Scope α) : Prop
    extends s.Polled polls s' where
  improvements_eq : s'.statistics.bestImprovements = s.statistics.bestImprovements
  scored_eq : s'.journal.scoredTrials = s.journal.scoredTrials

namespace Scope.Quiet

variable {s s' s'' : Scope α} {polls more : List Bool}

theorem refl (s : Scope α) : s.Quiet [] s :=
  ⟨.refl s, rfl, rfl⟩

theorem trans (h : s.Quiet polls s') (h' : s'.Quiet more s'') : s.Quiet (polls ++ more) s'' where
  toPolled := h.toPolled.trans h'.toPolled
  improvements_eq := h'.improvements_eq.trans h.improvements_eq
  scored_eq := h'.scored_eq.trans h.scored_eq

/-- Tasks are neither scored trials nor polls. -/
theorem task (h : s.Quiet polls s') (event : TaskEvent) :
    s.Quiet polls { s' with journal := s'.journal.push (.task event) } where
  answers_eq := by simpa [Journal.answers] using h.answers_eq
  asked := h.asked
  improvements_eq := h.improvements_eq
  scored_eq := by simpa [Journal.scoredTrials] using h.scored_eq

/-- Nor are log entries. -/
theorem noted (h : s.Quiet polls s') (n : Note α) :
    s.Quiet polls { s' with journal := s'.journal.push (.noted n) } where
  answers_eq := by simpa [Journal.answers] using h.answers_eq
  asked := h.asked
  improvements_eq := h.improvements_eq
  scored_eq := by simpa [Journal.scoredTrials] using h.scored_eq

theorem polled (h : s.Quiet polls s') (drawn : Nat) :
    s.Quiet (polls ++ [s'.termination.poll.1]) { s' with
      termination := s'.termination.poll.2
      journal := s'.journal.push (.polled s'.termination.poll.1 drawn) } where
  answers_eq := by rw [Journal.answers_push_polled, h.answers_eq, List.append_assoc]
  asked := h.asked.snoc
  improvements_eq := h.improvements_eq
  scored_eq := by simpa [Journal.scoredTrials] using h.scored_eq

theorem counted (h : s.Quiet polls s') {statistics : Statistics}
    (hbest : statistics.bestImprovements = s'.statistics.bestImprovements) :
    s.Quiet polls { s' with statistics } :=
  ⟨⟨h.answers_eq, h.asked⟩, hbest.trans h.improvements_eq, h.scored_eq⟩

theorem drawn (h : s.Quiet polls s') (stream : Random.Stream) :
    s.Quiet polls { s' with stream } :=
  ⟨⟨h.answers_eq, h.asked⟩, h.improvements_eq, h.scored_eq⟩

end Scope.Quiet

end KCut
