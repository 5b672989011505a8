import Mathlib.Algebra.Group.Basic
import Mathlib.Data.List.Basic
import Mathlib.Data.List.Induction
import KCut.Run

/-!
# KCut.Proofs.Course.Trace

The course of a run: the tasks that begin and end, and the polls in between.

A `Trial` says how one trial has gone: where a poll stopped it, how many rounds its
searches had, and how many random words had been drawn by then. From it follow both the
events that a listener hears (`Trial.events`) and these events together with the polls
(`Trial.beats`). The first is the grammar of the tasks; the second is what laws about
stopped runs are read off.
-/

namespace KCut

/-- A task that begins or ends, or a poll with the number of random words drawn until
then. -/
inductive Beat
  | task (event : TaskEvent)
  | poll (stop : Bool) (drawn : Nat)
deriving Repr, DecidableEq

namespace Beat

def event? : Beat → Option TaskEvent
  | task event => some event
  | poll _ _ => none

def stop? : Beat → Option Bool
  | task _ => none
  | poll stop _ => some stop

/-- The tasks that begin and end. -/
def events (beats : List Beat) : List TaskEvent :=
  beats.filterMap event?

/-- The answers to the polls. -/
def answers (beats : List Beat) : List Bool :=
  beats.filterMap stop?

@[simp] theorem events_nil : events [] = [] := rfl

@[simp] theorem events_task (event : TaskEvent) (beats : List Beat) :
    events (task event :: beats) = event :: events beats := rfl

@[simp] theorem events_poll (stop : Bool) (drawn : Nat) (beats : List Beat) :
    events (poll stop drawn :: beats) = events beats := rfl

@[simp] theorem events_append (beats more : List Beat) :
    events (beats ++ more) = events beats ++ events more :=
  List.filterMap_append

@[simp] theorem answers_nil : answers [] = [] := rfl

@[simp] theorem answers_task (event : TaskEvent) (beats : List Beat) :
    answers (task event :: beats) = answers beats := rfl

@[simp] theorem answers_poll (stop : Bool) (drawn : Nat) (beats : List Beat) :
    answers (poll stop drawn :: beats) = stop :: answers beats := rfl

@[simp] theorem answers_append (beats more : List Beat) :
    answers (beats ++ more) = answers beats ++ answers more :=
  List.filterMap_append

end Beat

/-- What an entry of a journal says about the course of the run. -/
def Entry.beat? {α : Type} : Entry α → Option Beat
  | .task event => some (.task event)
  | .polled stop drawn => some (.poll stop drawn)
  | _ => none

namespace Journal

variable {α : Type}

/-- The course of the run that a journal is about. -/
def course (j : Journal α) : List Beat :=
  j.toList.filterMap Entry.beat?

theorem events_course (j : Journal α) : Beat.events j.course = j.events := by
  rw [Beat.events, course, List.filterMap_filterMap, events]
  refine List.filterMap_congr fun entry _ => ?_
  cases entry <;> rfl

theorem answers_course (j : Journal α) : Beat.answers j.course = j.answers := by
  rw [Beat.answers, course, List.filterMap_filterMap, answers]
  refine List.filterMap_congr fun entry _ => ?_
  cases entry <;> rfl

theorem course_push (j : Journal α) (entry : Entry α) :
    Journal.course (j.push entry) = j.course ++ entry.beat?.toList := by
  rw [course, Array.toList_push, List.filterMap_append, course]
  congr 1

end Journal

/-! ### Words -/

/-- A task around what happens while it lasts. -/
def Task.around (task : Task) (inner : List TaskEvent) : List TaskEvent :=
  .began task :: (inner ++ [.ended task])

/-- Every task that begins ends, and tasks end in the order in which they are nested. -/
inductive Nested : List TaskEvent → Prop
  | nil : Nested []
  | append {events more : List TaskEvent} : Nested events → Nested more → Nested (events ++ more)
  | around (task : Task) {events : List TaskEvent} : Nested events → Nested (task.around events)

namespace Course

/-- A task around a part of the course. -/
def around (task : Task) (inner : List Beat) : List Beat :=
  .task (.began task) :: (inner ++ [.task (.ended task)])

@[simp] theorem events_around (task : Task) (inner : List Beat) :
    Beat.events (around task inner) = task.around (Beat.events inner) := by
  simp [around, Task.around]

@[simp] theorem answers_around (task : Task) (inner : List Beat) :
    Beat.answers (around task inner) = Beat.answers inner := by
  simp [around]

/-- Parts of a course one after another, each with the number of words drawn when it ends.
In front of each part a poll lets the run go on; if the parts are `stopped`, one more poll
has done so. -/
def chain (stopped : Bool) (drawn : Nat) : List (List Beat × Nat) → List Beat
  | [] => if stopped then [.poll true drawn] else []
  | (part, drawn') :: rest => .poll false drawn :: (part ++ chain stopped drawn' rest)

/-- The number of words drawn after a chain. -/
def chainEnd (drawn : Nat) : List (List Beat × Nat) → Nat
  | [] => drawn
  | (_, drawn') :: rest => chainEnd drawn' rest

/-- Polls are not heard. -/
@[simp] theorem events_chain (stopped : Bool) (drawn : Nat) (parts : List (List Beat × Nat)) :
    Beat.events (chain stopped drawn parts) = parts.flatMap fun part => Beat.events part.1 := by
  induction parts generalizing drawn with
  | nil => cases stopped <;> rfl
  | cons part rest ih => simp [chain, ih]

/-! ### Local searches -/

/-- How a local search has gone. -/
structure Descent where
  rounds : Nat
  /-- Whether a poll has stopped it. -/
  stopped : Bool
  /-- The number of words drawn before it, and so after it. -/
  drawn : Nat

namespace Descent

/-- The two phases of a round. -/
def phases : List Beat :=
  around .computeAffinities [] ++ around .swapForLocalImprovements []

/-- The rounds of a search. -/
def loop (d : Descent) : List Beat :=
  chain d.stopped d.drawn (List.replicate d.rounds (phases, d.drawn))

def beats (d : Descent) : List Beat :=
  around .localSearch (around .convergenceLoop d.loop ++ around .computeCost [])

/-- What is heard of a local search: rounds of affinities and moves, then the cost. -/
def heard (rounds : Nat) : List TaskEvent :=
  Task.localSearch.around (Task.convergenceLoop.around
    (List.replicate rounds (Task.computeAffinities.around [] ++
      Task.swapForLocalImprovements.around [])).flatten ++ Task.computeCost.around [])

theorem events_beats (d : Descent) : Beat.events d.beats = heard d.rounds := by
  simp [beats, loop, heard, phases, List.flatMap_replicate]

end Descent

/-! ### Searches -/

/-- How the candidate of a trial has been improved. -/
inductive Search
  /-- The trial was stopped behind its construction: the candidate is only scored. -/
  | score
  /-- By a local search. -/
  | plain (rounds : Nat) (stopped : Bool)
  /-- By rounds of a neighborhood search, each with its order. -/
  | neighborhoods (rounds : List (Nat × Descent)) (stopped : Bool)

namespace Search

def isScore : Search → Bool
  | score => true
  | _ => false

/-- A round of a neighborhood search holds one local search. -/
def round (r : Nat × Descent) : List Beat × Nat :=
  (around (.vnsRound r.1) r.2.beats, r.2.drawn)

/-- The beats of a search that begins when `built` words have been drawn. -/
def beats (built : Nat) : Search → List Beat
  | score => around .computeCost []
  | plain rounds stopped => Descent.beats ⟨rounds, stopped, built⟩
  | neighborhoods rounds stopped =>
      around .variableNeighborhoodSearch (chain stopped built (rounds.map round))

/-- The number of words drawn after a search. -/
def drawn (built : Nat) : Search → Nat
  | neighborhoods rounds _ => chainEnd built (rounds.map round)
  | _ => built

/-- What is heard of a search: one local search, rounds that hold one each, or a lone
cost. -/
def events : Search → List TaskEvent
  | score => Task.computeCost.around []
  | plain rounds _ => Descent.heard rounds
  | neighborhoods rounds _ => Task.variableNeighborhoodSearch.around
      (rounds.flatMap fun r => (Task.vnsRound r.1).around (Descent.heard r.2.rounds))

theorem events_beats (s : Search) (built : Nat) : Beat.events (s.beats built) = s.events := by
  cases s with
  | score => simp [beats, events]
  | plain rounds stopped => exact Descent.events_beats _
  | neighborhoods rounds stopped =>
      simp [beats, events, round, List.flatMap_map, Descent.events_beats]

/-- The kind of search that a solver of the given maximal order makes, unless it is
stopped. -/
def Fits (maxOrder : Nat) : Search → Prop
  | score => True
  | plain _ _ => maxOrder = 0
  | neighborhoods _ _ => 0 < maxOrder

end Search

/-! ### Trials -/

/-- How a trial has gone. -/
structure Trial where
  /-- The number of words drawn when its candidate had been built. -/
  built : Nat
  search : Search

namespace Trial

/-- The beats of the trial with the given number. A poll follows its construction. -/
def beats (index : Nat) (t : Trial) : List Beat :=
  around (.trial index)
    (around .construction [] ++ .poll t.search.isScore t.built :: t.search.beats t.built)

/-- The number of words drawn after a trial. -/
def drawn (t : Trial) : Nat :=
  t.search.drawn t.built

/-- What is heard of a trial. -/
def events (index : Nat) (t : Trial) : List TaskEvent :=
  (Task.trial index).around (Task.construction.around [] ++ t.search.events)

theorem events_beats (index : Nat) (t : Trial) : Beat.events (t.beats index) = t.events index := by
  simp [beats, events, Search.events_beats]

/-- The trials of a run as parts of its course, numbered from `index` on. -/
def parts (index : Nat) (trials : List Trial) : List (List Beat × Nat) :=
  (trials.zipIdx index).map fun t => (t.1.beats t.2, t.1.drawn)

end Trial

/-- What is heard of a run: its trials in order, numbered from one. -/
def runEvents (trials : List Trial) : List TaskEvent :=
  Task.grasp.around ((trials.zipIdx 1).flatMap fun t => t.1.events t.2)

/-- The beats of a run. -/
def runBeats (stopped : Bool) (trials : List Trial) : List Beat :=
  around .grasp (chain stopped 0 (Trial.parts 1 trials))

theorem events_runBeats (stopped : Bool) (trials : List Trial) :
    Beat.events (runBeats stopped trials) = runEvents trials := by
  simp [runBeats, runEvents, Trial.parts, List.flatMap_map, Trial.events_beats]

end Course

/-! ### Nested words -/

namespace Nested

theorem flatMap {ι : Type} {f : ι → List TaskEvent} {l : List ι} (h : ∀ i ∈ l, Nested (f i)) :
    Nested (l.flatMap f) := by
  induction l with
  | nil => exact .nil
  | cons i rest ih =>
      rw [List.flatMap_cons]
      exact (h i List.mem_cons_self).append (ih fun j hj => h j (List.mem_cons_of_mem i hj))

theorem flatten_replicate {events : List TaskEvent} (h : Nested events) (n : Nat) :
    Nested (List.replicate n events).flatten := by
  rw [← List.flatMap_id]
  refine flatMap fun events' hevents => ?_
  rw [List.eq_of_mem_replicate hevents]
  exact h

theorem descent (rounds : Nat) : Nested (Course.Descent.heard rounds) :=
  .around _ (.append (.around _ (flatten_replicate (.append (.around _ .nil) (.around _ .nil)) _))
    (.around _ .nil))

theorem search (s : Course.Search) : Nested s.events := by
  cases s with
  | score => exact .around _ .nil
  | plain rounds stopped => exact descent rounds
  | neighborhoods rounds stopped =>
      exact .around _ (flatMap fun r _ => .around _ (descent r.2.rounds))

/-- **The events of a run are properly nested**, also if it is stopped. -/
theorem runEvents (trials : List Course.Trial) : Nested (Course.runEvents trials) :=
  .around _ (flatMap fun t _ => .around _ (.append (.around _ .nil) (search t.1.search)))

end Nested

/-! ### What is counted -/

/-- What both the statistics of a run and its listeners count. -/
structure Work where
  /-- Trials that were searched. -/
  trials : Nat
  localSearches : Nat
  /-- Rounds of local searches. -/
  rounds : Nat
  /-- Rounds of neighborhood searches. -/
  vnsRounds : Nat

namespace Work

instance : Zero Work := ⟨⟨0, 0, 0, 0⟩⟩

instance : Add Work :=
  ⟨fun w w' => ⟨w.trials + w'.trials, w.localSearches + w'.localSearches, w.rounds + w'.rounds,
    w.vnsRounds + w'.vnsRounds⟩⟩

theorem add_def (w w' : Work) : w + w' = ⟨w.trials + w'.trials, w.localSearches + w'.localSearches,
    w.rounds + w'.rounds, w.vnsRounds + w'.vnsRounds⟩ := rfl

theorem zero_def : (0 : Work) = ⟨0, 0, 0, 0⟩ := rfl

instance : AddCommMonoid Work where
  add_assoc w w' w'' := by simp [add_def, Nat.add_assoc]
  add_comm w w' := by simp [add_def, Nat.add_comm]
  zero_add w := by simp [add_def, zero_def]
  add_zero w := by simp [add_def, zero_def]
  nsmul := nsmulRec

/-- The event begins a round of a neighborhood search. -/
def beginsVnsRound : TaskEvent → Bool
  | .began (.vnsRound _) => true
  | _ => false

/-- The work that can be told from the events of a run. Whether a trial has been searched is
not among it. -/
def heard (events : List TaskEvent) : Work where
  trials := 0
  localSearches := events.count (.began .localSearch)
  rounds := events.count (.began .computeAffinities)
  vnsRounds := events.countP beginsVnsRound

theorem heard_append (events more : List TaskEvent) :
    heard (events ++ more) = heard events + heard more := by
  simp [heard, add_def]

/-- What begins is heard, and that it ends is not heard again. -/
theorem heard_around (task : Task) (inner : List TaskEvent) :
    heard (task.around inner) = heard [.began task] + heard inner := by
  have hsplit : task.around inner = [.began task] ++ (inner ++ [.ended task]) := rfl
  have hend : heard [.ended task] = 0 := rfl
  rw [hsplit, heard_append, heard_append, hend, add_zero]

/-- A counting listener counts the same. -/
theorem heard_eq_counts (events : List TaskEvent) :
    heard events = ⟨0, (Counts.ofEvents events).localSearches,
      (Counts.ofEvents events).convergenceRounds, (Counts.ofEvents events).vnsRounds⟩ := by
  induction events using List.reverseRecOn with
  | nil => rfl
  | append_singleton events event ih =>
      have hheard : Counts.ofEvents (events ++ [event]) = (Counts.ofEvents events).hear event :=
        List.foldl_append
      rw [heard_append, ih, hheard]
      cases event with
      | ended task => rfl
      | began task => cases task <;> rfl

end Work

namespace Course

/-- The work that a trial is counted with. -/
def Trial.work (index : Nat) (t : Trial) : Work :=
  Work.heard (t.events index) + ⟨if t.search.isScore then 0 else 1, 0, 0, 0⟩

/-- Of a trial, only what its search does is work. -/
theorem Trial.work_eq (index : Nat) (t : Trial) :
    t.work index = Work.heard t.search.events + ⟨if t.search.isScore then 0 else 1, 0, 0, 0⟩ := by
  have hbegan : Work.heard [.began (.trial index)] = 0 := rfl
  have hbuilt : Work.heard (Task.construction.around []) = 0 := rfl
  rw [work, events, Work.heard_around, Work.heard_append, hbegan, hbuilt, zero_add, zero_add]

/-- The work of trials that are numbered from `index` on. -/
def Trial.works (index : Nat) (trials : List Trial) : Work :=
  ((trials.zipIdx index).map fun t => t.1.work t.2).sum

/-- The work of a run is what is heard of it, and the number of its searched trials. -/
theorem works_eq (trials : List Trial) :
    Trial.works 1 trials = Work.heard (runEvents trials) +
      ⟨trials.countP (fun t => !t.search.isScore), 0, 0, 0⟩ := by
  have hbegan : Work.heard [.began .grasp] = 0 := rfl
  rw [runEvents, Work.heard_around, hbegan, zero_add]
  generalize 1 = index
  induction trials generalizing index with
  | nil => rfl
  | cons t rest ih =>
      have hcount : (⟨(t :: rest).countP (fun t => !t.search.isScore), 0, 0, 0⟩ : Work) =
          ⟨if t.search.isScore then 0 else 1, 0, 0, 0⟩ +
            ⟨rest.countP (fun t => !t.search.isScore), 0, 0, 0⟩ := by
        rw [List.countP_cons, Nat.add_comm]
        cases t.search.isScore <;> rfl
      have hworks : Trial.works index (t :: rest) =
          t.work index + Trial.works (index + 1) rest := rfl
      rw [hworks, ih, Trial.work, hcount, List.zipIdx_cons, List.flatMap_cons, Work.heard_append,
        add_add_add_comm]

/-- **A local search is heard once, and each of its rounds.** -/
theorem heard_descent (rounds : Nat) : Work.heard (Descent.heard rounds) = ⟨0, 1, rounds, 0⟩ := by
  have hrounds : ∀ n, Work.heard (List.replicate n (Task.computeAffinities.around [] ++
      Task.swapForLocalImprovements.around [])).flatten = ⟨0, 0, n, 0⟩ := by
    intro n
    induction n with
    | zero => rfl
    | succ n ih =>
        rw [List.replicate_succ, List.flatten_cons, Work.heard_append, ih, Nat.add_comm n 1]
        rfl
  rw [Descent.heard, Work.heard_around, Work.heard_append, Work.heard_around, hrounds]
  simp [Work.add_def, Work.heard, Work.beginsVnsRound, Task.around]

end Course

end KCut
