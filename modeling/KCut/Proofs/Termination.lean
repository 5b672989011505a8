import KCut.Termination

/-!
# KCut.Proofs.Termination

The answers of a condition to successive polls.

A poll may change a condition, so what a condition answers is said of whole
sequences of polls (`Answers`). A condition that never fires answers all of them
with `false` (`NeverFires.answers`); one that stays stopped answers with `true` from
its first `true` on (`StaysStopped.answers`).
-/

namespace KCut.Termination

/-- The condition after some more polls. -/
def after (t : Termination) : Nat → Termination
  | 0 => t
  | n + 1 => t.poll.2.after n

/-- No poll, however late, stops the run. -/
def NeverFires (t : Termination) : Prop :=
  ∀ n, (t.after n).poll.1 = false

/-- The condition `t` gives some answers, one after another, and is `t'` then. -/
inductive Answers : Termination → List Bool → Termination → Prop
  | refl (t : Termination) : Answers t [] t
  | head {t t' : Termination} {polls : List Bool} :
      Answers t.poll.2 polls t' → Answers t (t.poll.1 :: polls) t'

namespace Answers

variable {t t' t'' : Termination} {polls more : List Bool}

theorem trans (h : t.Answers polls t') (h' : t'.Answers more t'') :
    t.Answers (polls ++ more) t'' := by
  induction h with
  | refl t => exact h'
  | head _ ih => exact .head (ih h')

theorem head_eq {stop : Bool} (h : t.Answers (stop :: polls) t') : t.poll.1 = stop := by
  cases h with
  | head _ => rfl

theorem snoc (h : t.Answers polls t') : t.Answers (polls ++ [t'.poll.1]) t'.poll.2 :=
  h.trans (.head (.refl _))

end Answers

namespace NeverFires

variable {t t' first second : Termination}

theorem poll (h : t.NeverFires) : t.poll.1 = false ∧ t.poll.2.NeverFires :=
  ⟨h 0, fun n => h (n + 1)⟩

/-- **A condition that never fires** lets the run go on at every poll. -/
theorem answers {polls : List Bool} (h : t.NeverFires) (hanswers : t.Answers polls t') :
    true ∉ polls := by
  induction hanswers with
  | refl t => exact List.not_mem_nil
  | head _ ih =>
      obtain ⟨hpoll, hnext⟩ := h.poll
      rw [hpoll]
      simpa using ih hnext

theorem of_answers {polls : List Bool} (h : t.NeverFires) (hanswers : t.Answers polls t') :
    t'.NeverFires := by
  induction hanswers with
  | refl t => exact h
  | head _ ih => exact ih h.poll.2

/-- A condition that a poll leaves as it is answers all of them alike. -/
theorem of_poll_eq (h : t.poll = (false, t)) : t.NeverFires := by
  intro n
  induction n with
  | zero => rw [after, h]
  | succ n ih =>
      rw [after, h]
      exact ih

theorem predicate {running : Nat → Bool} {calls : Nat} (h : ∀ i, running (calls + i) = true) :
    (predicate running calls).NeverFires := by
  intro n
  induction n generalizing calls with
  | zero => simpa [after] using h 0
  | succ n ih =>
      refine ih fun i => ?_
      rw [Nat.add_assoc]
      exact h (1 + i)

/-- Two conditions of which none fires do not fire together. -/
theorem either (h : first.NeverFires) (h' : second.NeverFires) :
    (either first second).NeverFires := by
  have hpoll : ∀ {first second : Termination}, first.NeverFires →
      (Termination.either first second).poll =
        (second.poll.1, Termination.either first.poll.2 second.poll.2) := by
    intro first second hfirst
    exact poll_either_of_running second (Prod.ext hfirst.poll.1 rfl)
  intro n
  induction n generalizing first second with
  | zero =>
      rw [after, hpoll h]
      exact h'.poll.1
  | succ n ih =>
      rw [after, hpoll h]
      exact ih h.poll.2 h'.poll.2

end NeverFires

/-! ### Conditions that stay stopped -/

/-- Every poll stops the run. -/
def Fires (t : Termination) : Prop :=
  ∀ n, (t.after n).poll.1 = true

/-- A poll that stops the run is followed by no other ones than such. -/
def StaysStopped (t : Termination) : Prop :=
  ∀ n, (t.after n).poll.1 = true → (t.after n).poll.2.Fires

namespace Fires

variable {t t' first second : Termination}

theorem poll (h : t.Fires) : t.poll.1 = true ∧ t.poll.2.Fires :=
  ⟨h 0, fun n => h (n + 1)⟩

theorem answers {polls : List Bool} (h : t.Fires) (hanswers : t.Answers polls t') :
    ∀ stop ∈ polls, stop = true := by
  induction hanswers with
  | refl t => exact fun _ hmem => absurd hmem List.not_mem_nil
  | head _ ih =>
      obtain ⟨hpoll, hnext⟩ := h.poll
      intro stop hmem
      rcases List.mem_cons.1 hmem with rfl | hmem
      · exact hpoll
      · exact ih hnext stop hmem

/-- A condition that a poll leaves as it is answers all of them alike. -/
theorem of_poll_eq (h : t.poll = (true, t)) : t.Fires := by
  intro n
  induction n with
  | zero => rw [after, h]
  | succ n ih =>
      rw [after, h]
      exact ih

/-- It is enough that one of two conditions fires. -/
theorem either (h : first.Fires ∨ second.Fires) : (either first second).Fires := by
  intro n
  induction n generalizing first second with
  | zero =>
      rw [after]
      cases hfirst : first.poll.1 with
      | true => rw [poll_either_of_stopped second (Prod.ext hfirst rfl)]
      | false =>
          rw [poll_either_of_running second (Prod.ext hfirst rfl)]
          exact (h.resolve_left fun hfires => by simp [hfires.poll.1] at hfirst).poll.1
  | succ n ih =>
      rw [after]
      cases hfirst : first.poll.1 with
      | true =>
          rw [poll_either_of_stopped second (Prod.ext hfirst rfl)]
          exact ih (h.imp_left fun hfires => hfires.poll.2)
      | false =>
          rw [poll_either_of_running second (Prod.ext hfirst rfl)]
          exact ih (h.imp (fun hfires => hfires.poll.2) fun hfires => hfires.poll.2)

end Fires

namespace StaysStopped

variable {t t' first second : Termination}

theorem poll (h : t.StaysStopped) : (t.poll.1 = true → t.poll.2.Fires) ∧ t.poll.2.StaysStopped :=
  ⟨h 0, fun n => h (n + 1)⟩

/-- **A condition that stays stopped** answers with `true` from its first `true` on. -/
theorem answers {polls : List Bool} (h : t.StaysStopped) (hanswers : t.Answers polls t') :
    polls.Pairwise fun stop later => stop = true → later = true := by
  induction hanswers with
  | refl t => exact List.Pairwise.nil
  | head hrest ih =>
      obtain ⟨hfires, hnext⟩ := h.poll
      exact List.Pairwise.cons (fun later hmem hstop => (hfires hstop).answers hrest later hmem)
        (ih hnext)

/-- A condition that a poll leaves as it is. -/
theorem of_poll_eq (h : t.poll.2 = t) : t.StaysStopped := by
  have hafter : ∀ n, t.after n = t := by
    intro n
    induction n with
    | zero => rfl
    | succ n ih => rw [after, h, ih]
  intro n hstop
  rw [hafter] at hstop ⊢
  rw [h]
  exact .of_poll_eq (Prod.ext hstop h)

/-- A predicate that does not let the run go on again. -/
theorem predicate {running : Nat → Bool} {calls : Nat}
    (h : ∀ i j, i ≤ j → running i = false → running j = false) :
    (predicate running calls).StaysStopped := by
  have hafter : ∀ n calls, (Termination.predicate running calls).after n =
      .predicate running (calls + n) := by
    intro n
    induction n with
    | zero => exact fun _ => rfl
    | succ n ih =>
        intro calls
        rw [after, poll_predicate, ih, Nat.add_right_comm, Nat.add_assoc]
  intro n hstop m
  rw [hafter] at hstop
  rw [hafter, poll_predicate, hafter, poll_predicate]
  simp only [poll_predicate, Bool.not_eq_true'] at hstop ⊢
  exact h _ _ (by omega) hstop

/-- Two conditions that stay stopped do so together. -/
theorem either (h : first.StaysStopped) (h' : second.StaysStopped) :
    (either first second).StaysStopped := by
  intro n
  induction n generalizing first second with
  | zero =>
      rw [after]
      cases hfirst : first.poll.1 with
      | true =>
          rw [poll_either_of_stopped second (Prod.ext hfirst rfl)]
          exact fun _ => .either (Or.inl (h.poll.1 hfirst))
      | false =>
          rw [poll_either_of_running second (Prod.ext hfirst rfl)]
          exact fun hstop => .either (Or.inr (h'.poll.1 hstop))
  | succ n ih =>
      rw [after]
      cases hfirst : first.poll.1 with
      | true =>
          rw [poll_either_of_stopped second (Prod.ext hfirst rfl)]
          exact ih h.poll.2 h'
      | false =>
          rw [poll_either_of_running second (Prod.ext hfirst rfl)]
          exact ih h.poll.2 h'.poll.2

/-- A time limit in front of a condition: it has been reached at the first poll or never is. -/
theorem withLimit (h : t.StaysStopped) (limit : Option Nat) : (t.withLimit limit).StaysStopped := by
  cases limit with
  | none => exact h
  | some limit => exact .either (.of_poll_eq rfl) h

end StaysStopped

end KCut.Termination
