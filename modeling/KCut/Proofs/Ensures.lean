import KCut.Proofs.Run

/-!
# KCut.Proofs.Ensures

Partial correctness of the steps of a run.

`Ensures m s post` says that `post` holds of whatever result the step `m` has in the scope
`s`; nothing is said of a step without a result. This is what laws about the entries of a
journal need: they ask nothing of the buffers that a step works in, nor of the weights. As
for `Gives`, there is one rule for each primitive step and one for sequences.
-/

namespace KCut.Run

variable {α β γ : Type}

/-- Whatever the step results in, `post` holds of it and of the scope after it. -/
def Ensures (m : Run α β) (s : Scope α) (post : β → Scope α → Prop) : Prop :=
  ∀ b s', m s = .ok (b, s') → post b s'

variable {s : Scope α} {post : β → Scope α → Prop}

theorem Ensures.mono {m : Run α β} {post' : β → Scope α → Prop} (h : Ensures m s post)
    (himp : ∀ b s', post b s' → post' b s') : Ensures m s post' :=
  fun b s' hm => himp b s' (h b s' hm)

/-- A step that is known to give a result gives no other one. -/
theorem Gives.ensures {m : Run α β} (h : Gives m s post) : Ensures m s post := by
  intro b s' hm
  exact (gives_iff_of_eq hm).1 h

theorem GivesOr.ensures {allowed : Fault → Prop} {m : Run α β} (h : GivesOr allowed m s post) :
    Ensures m s post := by
  rcases h with hgives | ⟨fault, hm, -⟩
  · exact hgives.ensures
  · intro b s' hm'
    rw [hm] at hm'
    cases hm'

/-- What a step gives, and what holds of all its results anyway. -/
theorem Gives.and {m : Run α β} {post' : β → Scope α → Prop} (h : Gives m s post)
    (h' : Ensures m s post') : Gives m s fun b s' => post b s' ∧ post' b s' := by
  obtain ⟨b, s', hm, hpost⟩ := h
  exact ⟨b, s', hm, hpost, h' b s' hm⟩

/-- A step whose outcome is known. -/
theorem ensures_iff_of_eq {m : Run α β} {b : β} {s' : Scope α} (hm : m s = .ok (b, s')) :
    Ensures m s post ↔ post b s' := by
  constructor
  · exact fun h => h b s' hm
  · intro hpost b' s'' hm'
    rw [hm] at hm'
    cases hm'
    exact hpost

@[simp] theorem ensures_pure {b : β} : Ensures (pure b) s post ↔ post b s :=
  ensures_iff_of_eq rfl

@[simp] theorem ensures_bind {m : Run α γ} {f : γ → Run α β} :
    Ensures (m >>= f) s post ↔ Ensures m s fun c s' => Ensures (f c) s' post := by
  constructor
  · intro h c s₁ hfirst b s' hrest
    have hbind : (m >>= f) s = (m s >>= fun r => f r.1 r.2) := rfl
    exact h b s' (by rw [hbind, hfirst]; exact hrest)
  · intro h b s' hm
    obtain ⟨c, s₁, hfirst, hrest⟩ := bind_eq_ok hm
    exact h c s₁ hfirst b s' hrest

@[simp] theorem ensures_enter {entry : Entry α} {post : Unit → Scope α → Prop} :
    Ensures (enter entry) s post ↔ post () { s with journal := s.journal.push entry } :=
  ensures_iff_of_eq rfl

@[simp] theorem ensures_begin {task : Task} {post : Unit → Scope α → Prop} :
    Ensures (begin task) s post ↔
      post () { s with journal := s.journal.push (.task (.began task)) } :=
  ensures_enter

@[simp] theorem ensures_finish {task : Task} {post : Unit → Scope α → Prop} :
    Ensures (finish task) s post ↔
      post () { s with journal := s.journal.push (.task (.ended task)) } :=
  ensures_enter

@[simp] theorem ensures_note {n : Note α} {post : Unit → Scope α → Prop} :
    Ensures (note n) s post ↔ post () { s with journal := s.journal.push (.noted n) } :=
  ensures_enter

@[simp] theorem ensures_count {f : Statistics → Statistics} {post : Unit → Scope α → Prop} :
    Ensures (count f) s post ↔ post () { s with statistics := f s.statistics } :=
  ensures_iff_of_eq rfl

@[simp] theorem ensures_concurrency {post : Nat → Scope α → Prop} :
    Ensures concurrency s post ↔ post s.concurrency s :=
  ensures_iff_of_eq rfl

@[simp] theorem ensures_poll {post : Bool → Scope α → Prop} :
    Ensures poll s post ↔ post s.termination.poll.1 { s with
      termination := s.termination.poll.2
      journal := s.journal.push (.polled s.termination.poll.1 s.stream.position) } :=
  ensures_iff_of_eq rfl

/-- A checked computation changes nothing. -/
@[simp] theorem ensures_check {x : Except Fault β} :
    Ensures (check x) s post ↔ ∀ b, x = .ok b → post b s := by
  cases x with
  | ok b => exact (ensures_iff_of_eq rfl).trans (by simp)
  | error fault => exact ⟨fun _ b hb => (nomatch hb), fun _ b s' hm => (nomatch hm)⟩

/-- A step that fails has no result to speak of. -/
theorem ensures_error {fault : Fault} : Ensures (check (.error fault)) s post := by
  intro b s' hm
  cases hm

/-- A draw moves the stream on, and nothing else. -/
theorem ensures_draw {low high : Nat} {post : Nat → Scope α → Prop}
    (h : ∀ x stream, post x { s with stream }) : Ensures (draw low high) s post := by
  intro x s' hm
  rw [draw] at hm
  split at hm
  · cases hm
    exact h _ _
  · cases hm

/-- So does splitting a stream off. -/
theorem ensures_split {post : Random.Stream → Scope α → Prop}
    (h : ∀ stream rest, post stream { s with stream := rest }) : Ensures split s post := by
  intro stream s' hm
  rw [split] at hm
  cases hm
  exact h _ _

end KCut.Run
