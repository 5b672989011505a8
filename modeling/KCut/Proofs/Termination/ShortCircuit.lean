import KCut.Proofs.Termination

/-!
# KCut.Proofs.Termination.ShortCircuit

Composed conditions are polled from left to right.

What a poll does is a matter of the leaves of a condition and not of how these are composed. It
asks the leaves one after another until one of them stops the run (`pollLogged_eq`), moves the
asked ones on and leaves the others as they are (`leaves_poll`). So a predicate has been asked
as often as all leaves to its left have said that the run goes on, whatever happens to the flags
of the condition between its polls (`getElem?_leaves_afterEvents`). A time limit in front of a
condition asks it at every poll, or stops the run itself at each of them
(`afterEvents_withLimit`, `afterEvents_withLimit_reached`).
-/

namespace KCut.Termination

/-! ### Leaves -/

/-- The parts of a condition that are not composed, from left to right. -/
def leaves : Termination → List Termination
  | either first second => first.leaves ++ second.leaves
  | leaf => [leaf]

/-- How many leaves a poll asks: those up to and including the first one that stops the run, or
all of them if there is none. -/
def asked (t : Termination) : Nat :=
  min (t.leaves.findIdx (fun leaf => leaf.poll.1) + 1) t.leaves.length

variable {t first second : Termination}

@[simp] theorem leaves_either :
    (either first second).leaves = first.leaves ++ second.leaves := rfl

/-- Leaves are not composed. -/
theorem ne_either_of_mem_leaves {leaf : Termination} (h : leaf ∈ t.leaves)
    (first second : Termination) : leaf ≠ either first second := by
  induction t with
  | either _ _ ih ih' => exact (List.mem_append.1 h).elim ih ih'
  | _ =>
      rw [List.mem_singleton.1 h]
      exact nofun

/-- **A poll stops the run iff one of the leaves does.** -/
theorem poll_stops_iff (t : Termination) :
    t.poll.1 = true ↔ ∃ leaf ∈ t.leaves, leaf.poll.1 = true := by
  induction t with
  | either first second ih ih' =>
      simp only [leaves_either, List.mem_append, or_and_right, exists_or, ← ih, ← ih']
      cases hfirst : first.poll.1 with
      | true => simp [poll_either_of_stopped second (Prod.ext hfirst rfl)]
      | false => simp [poll_either_of_running second (Prod.ext hfirst rfl)]
  | _ => simp [leaves]

theorem findIdx_lt_of_stopped (h : t.poll.1 = true) :
    t.leaves.findIdx (fun leaf => leaf.poll.1) < t.leaves.length :=
  List.findIdx_lt_length.2 ((poll_stops_iff t).1 h)

theorem findIdx_eq_of_running (h : t.poll.1 = false) :
    t.leaves.findIdx (fun leaf => leaf.poll.1) = t.leaves.length := by
  refine List.findIdx_eq_length.2 fun leaf hmem => Bool.eq_false_iff.2 fun hstop => ?_
  rw [(poll_stops_iff t).2 ⟨leaf, hmem, hstop⟩] at h
  exact nomatch h

/-- A leaf is all that a poll of it asks. -/
theorem asked_of_leaf (h : t.leaves = [t]) : t.asked = 1 := by
  rw [asked, h, List.length_singleton]
  omega

/-- All leaves are asked if none of them stops the run. -/
theorem asked_of_running (h : t.poll.1 = false) : t.asked = t.leaves.length := by
  rw [asked, findIdx_eq_of_running h]
  omega

theorem asked_either_of_stopped (second : Termination) (h : first.poll.1 = true) :
    (either first second).asked = first.asked := by
  have hlt := findIdx_lt_of_stopped h
  rw [asked, asked, leaves_either, List.findIdx_append, if_pos hlt, List.length_append]
  omega

theorem asked_either_of_running (second : Termination) (h : first.poll.1 = false) :
    (either first second).asked = first.leaves.length + second.asked := by
  have hnone := findIdx_eq_of_running h
  rw [asked, asked, leaves_either, List.findIdx_append, if_neg (by omega), List.length_append]
  omega

/-- All leaves to the left of leaf `i` say that the run goes on. -/
def runningBefore (i : Nat) (t : Termination) : Bool :=
  (t.leaves.take i).all fun leaf => !leaf.poll.1

/-- **A leaf is asked iff all leaves to its left say that the run goes on.** -/
theorem lt_asked_iff {i : Nat} (hi : i < t.leaves.length) :
    i < t.asked ↔ t.runningBefore i = true := by
  have hfirst : i ≤ t.leaves.findIdx (fun leaf => leaf.poll.1) ↔ t.runningBefore i = true := by
    rw [runningBefore, List.all_eq_true]
    constructor
    · intro hle leaf hmem
      obtain ⟨j, hj, rfl⟩ := List.mem_take_iff_getElem.1 hmem
      have hlt : j < t.leaves.findIdx (fun leaf => leaf.poll.1) := by omega
      simpa using List.not_of_lt_findIdx hlt
    · intro hrunning
      refine List.le_findIdx_of_not hi fun j hj => ?_
      have hj' : j < t.leaves.length := Nat.lt_trans hj hi
      have hmem : t.leaves[j] ∈ t.leaves.take i :=
        List.mem_take_iff_getElem.2 ⟨j, Nat.lt_min.2 ⟨hj, hj'⟩, rfl⟩
      simpa using hrunning _ hmem
  rw [asked, ← hfirst]
  omega

/-! ### One poll -/

/-- **A poll moves the asked leaves on** and no others. -/
theorem leaves_poll (t : Termination) :
    t.poll.2.leaves =
      (t.leaves.take t.asked).map (fun leaf => leaf.poll.2) ++ t.leaves.drop t.asked := by
  induction t with
  | either first second ih ih' =>
      cases hfirst : first.poll.1 with
      | true =>
          have hle : first.asked ≤ first.leaves.length := Nat.min_le_right _ _
          rw [poll_either_of_stopped second (Prod.ext hfirst rfl),
            asked_either_of_stopped second hfirst, leaves_either, leaves_either,
            List.take_append_of_le_length hle, List.drop_append_of_le_length hle, ih,
            List.append_assoc]
      | false =>
          rw [asked_of_running hfirst, List.take_length, List.drop_length, List.append_nil] at ih
          rw [poll_either_of_running second (Prod.ext hfirst rfl),
            asked_either_of_running second hfirst, leaves_either, leaves_either,
            List.take_length_add_append, List.drop_length_add_append, List.map_append, ih, ih',
            List.append_assoc]
  | _ => rw [asked_of_leaf rfl]; rfl

/-- A poll with a log of the leaves that it asks. The leaves are numbered from left to right, from
`number` on. -/
def pollLogged (number : Nat) : Termination → List Nat × Bool × Termination
  | either first second =>
      match first.pollLogged number with
      | (log, true, first') => (log, true, either first' second)
      | (log, false, first') =>
          let (log', stop, second') := second.pollLogged (number + first.leaves.length)
          (log ++ log', stop, either first' second')
  | leaf => ([number], leaf.poll)

/-- **The leaves are asked from left to right, each of them once**, up to the first one that stops
the run. -/
theorem pollLogged_eq (number : Nat) (t : Termination) :
    t.pollLogged number = (List.range' number t.asked, t.poll) := by
  induction t generalizing number with
  | either first second ih ih' =>
      cases hfirst : first.poll.1 with
      | true =>
          have hpoll : first.poll = (true, first.poll.2) := Prod.ext hfirst rfl
          rw [pollLogged, ih, hpoll, poll_either_of_stopped second hpoll,
            asked_either_of_stopped second hfirst]
      | false =>
          have hpoll : first.poll = (false, first.poll.2) := Prod.ext hfirst rfl
          rw [pollLogged, ih, hpoll, poll_either_of_running second hpoll,
            asked_either_of_running second hfirst, asked_of_running hfirst,
            ← List.range'_append_1]
          dsimp only
          rw [ih']
  | _ => rw [asked_of_leaf rfl]; rfl

theorem getElem?_leaves_poll (t : Termination) (i : Nat) :
    t.poll.2.leaves[i]? =
      t.leaves[i]?.map fun leaf => if i < t.asked then leaf.poll.2 else leaf := by
  have hle : t.asked ≤ t.leaves.length := Nat.min_le_right _ _
  rw [leaves_poll, List.getElem?_append, List.length_map, List.length_take, Nat.min_eq_left hle]
  split
  · next hi => rw [List.getElem?_map, List.getElem?_take_of_lt hi]
  · next hi =>
    rw [List.getElem?_drop, Nat.add_sub_cancel' (Nat.le_of_not_lt hi)]
    simp

/-! ### Polls one after another -/

/-- What may happen to a condition. -/
inductive Event
  | polled
  /-- Flag `i`, counted from left to right, is raised or lowered. -/
  | set (i : Nat) (raised : Bool)

/-- The condition after some events. -/
def afterEvents : Termination → List Event → Termination
  | t, [] => t
  | t, .polled :: rest => t.poll.2.afterEvents rest
  | t, .set i raised :: rest => (t.setFlag i raised).afterEvents rest

/-- The condition as each of the polls among some events finds it. -/
def polledStates : Termination → List Event → List Termination
  | _, [] => []
  | t, .polled :: rest => t :: t.poll.2.polledStates rest
  | t, .set i raised :: rest => (t.setFlag i raised).polledStates rest

theorem length_leaves_setFlag (t : Termination) (i : Nat) (raised : Bool) :
    (t.setFlag i raised).leaves.length = t.leaves.length := by
  induction t generalizing i with
  | either first second ih ih' =>
      rw [setFlag]
      split
      · rw [leaves_either, leaves_either, List.length_append, List.length_append, ih]
      · rw [leaves_either, leaves_either, List.length_append, List.length_append, ih']
  | _ => rfl

/-- A predicate has no flags. -/
theorem getElem?_leaves_setFlag {running : Nat → Bool} {calls j : Nat}
    (h : t.leaves[j]? = some (predicate running calls)) (i : Nat) (raised : Bool) :
    (t.setFlag i raised).leaves[j]? = some (predicate running calls) := by
  induction t generalizing i j with
  | either first second ih ih' =>
      have hlength := length_leaves_setFlag first i raised
      by_cases hj : j < first.leaves.length
      · rw [leaves_either, List.getElem?_append_left hj] at h
        rw [setFlag]
        split
        · rw [leaves_either, List.getElem?_append_left (by omega)]
          exact ih h i
        · rw [leaves_either, List.getElem?_append_left hj]
          exact h
      · have hge := Nat.le_of_not_lt hj
        rw [leaves_either, List.getElem?_append_right hge] at h
        rw [setFlag]
        split
        · rw [leaves_either, List.getElem?_append_right (by omega), hlength]
          exact h
        · rw [leaves_either, List.getElem?_append_right hge]
          exact ih' h _
  | flag old => cases j <;> simp [leaves] at h
  | _ => exact h

/-- **A predicate is asked at the polls at which all leaves to its left say that the run goes
on**, and at no others. -/
theorem getElem?_leaves_afterEvents {running : Nat → Bool} {calls i : Nat}
    (h : t.leaves[i]? = some (predicate running calls)) (events : List Event) :
    (t.afterEvents events).leaves[i]? = some (predicate running
      (calls + (t.polledStates events).countP (runningBefore i))) := by
  induction events generalizing t calls with
  | nil => exact h
  | cons event rest ih =>
      cases event with
      | set j raised => exact ih (getElem?_leaves_setFlag h j raised)
      | polled =>
          have hi : i < t.leaves.length := (List.getElem?_eq_some_iff.1 h).1
          have hpoll := getElem?_leaves_poll t i
          rw [h, Option.map_some] at hpoll
          rw [afterEvents, polledStates, List.countP_cons]
          by_cases hasked : t.runningBefore i = true
          · rw [if_pos ((lt_asked_iff hi).2 hasked)] at hpoll
            rw [if_pos hasked, ih hpoll, Nat.add_assoc, Nat.add_comm 1]
          · rw [if_neg (fun hlt => hasked ((lt_asked_iff hi).1 hlt))] at hpoll
            rw [if_neg hasked, ih hpoll, Nat.add_zero]

namespace Answers

variable {t' : Termination} {polls : List Bool}

/-- The answers to polls between which nothing else happens. -/
theorem eq_polled (h : t.Answers polls t') :
    polls = (t.polledStates (List.replicate polls.length .polled)).map (fun u => u.poll.1) ∧
      t' = t.afterEvents (List.replicate polls.length .polled) := by
  induction h with
  | refl t => exact ⟨rfl, rfl⟩
  | head hrest ih =>
      obtain ⟨hpolls, hafter⟩ := ih
      rw [List.length_cons, List.replicate_succ, polledStates, List.map_cons, afterEvents]
      exact ⟨congrArg _ hpolls, hafter⟩

end Answers

/-! ### Time limits -/

theorem setFlag_withLimit (t : Termination) (limit : Option Nat) (i : Nat) (raised : Bool) :
    (t.withLimit limit).setFlag i raised = (t.setFlag i raised).withLimit limit := by
  cases limit with
  | none => rfl
  | some limit => simp [withLimit, setFlag, flagCount]

/-- A time limit that has been reached stops the run before the condition behind it is asked. -/
theorem poll_withLimit_reached (t : Termination) :
    (t.withLimit (some 0)).poll = (true, t.withLimit (some 0)) := rfl

/-- A time limit that lies ahead leaves the answer to the condition behind it. -/
theorem poll_withLimit {limit : Option Nat} (h : limit ≠ some 0) (t : Termination) :
    (t.withLimit limit).poll = (t.poll.1, t.poll.2.withLimit limit) := by
  cases limit with
  | none => rfl
  | some limit =>
      have hahead : (time limit).poll = (false, time limit) := by
        rw [poll_time, beq_eq_false_iff_ne.2 fun hzero => h (congrArg some hzero)]
      exact poll_either_of_running t hahead

/-- **Behind a time limit that lies ahead, a condition is polled as without it.** -/
theorem afterEvents_withLimit {limit : Option Nat} (h : limit ≠ some 0) (t : Termination)
    (events : List Event) :
    (t.withLimit limit).afterEvents events = (t.afterEvents events).withLimit limit := by
  induction events generalizing t with
  | nil => rfl
  | cons event rest ih =>
      cases event with
      | polled => rw [afterEvents, poll_withLimit h, ih, afterEvents]
      | set i raised => rw [afterEvents, setFlag_withLimit, ih, afterEvents]

theorem polledStates_withLimit {limit : Option Nat} (h : limit ≠ some 0) (t : Termination)
    (events : List Event) :
    (t.withLimit limit).polledStates events =
      (t.polledStates events).map fun u => u.withLimit limit := by
  induction events generalizing t with
  | nil => rfl
  | cons event rest ih =>
      cases event with
      | polled => rw [polledStates, poll_withLimit h, ih, polledStates, List.map_cons]
      | set i raised => rw [polledStates, setFlag_withLimit, ih, polledStates]

theorem calls_setFlag (t : Termination) (i : Nat) (raised : Bool) :
    (t.setFlag i raised).calls = t.calls := by
  induction t generalizing i with
  | either first second ih ih' =>
      rw [setFlag]
      split
      · rw [calls, ih, calls]
      · rw [calls, ih', calls]
  | _ => rfl

/-- **Behind a time limit that has been reached, a condition is not asked.** -/
theorem afterEvents_withLimit_reached (t : Termination) (events : List Event) :
    ∃ t' : Termination, (t.withLimit (some 0)).afterEvents events = t'.withLimit (some 0) ∧
      t'.calls = t.calls := by
  induction events generalizing t with
  | nil => exact ⟨t, rfl, rfl⟩
  | cons event rest ih =>
      cases event with
      | polled =>
          rw [afterEvents, poll_withLimit_reached]
          exact ih t
      | set i raised =>
          obtain ⟨t', hafter, hcalls⟩ := ih (t.setFlag i raised)
          exact ⟨t', by rw [afterEvents, setFlag_withLimit, hafter],
            hcalls.trans (calls_setFlag t i raised)⟩

end KCut.Termination
