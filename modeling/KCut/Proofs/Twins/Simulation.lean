import KCut.Proofs.Ensures
import KCut.Proofs.Random
import KCut.Proofs.Twins.CostMap

/-!
# KCut.Proofs.Twins.Simulation

Two runs side by side.

`Run.Simulates S R m n` says that the steps `m` and `n` go the same way from all
scopes that `S` joins: both have results, which `R` joins, and leave scopes that `S`
joins again, or both end in the same fault. It is closed under sequences, so a proof
about two steps of the same shape is a walk through their common text.

The scopes of two runs are joined by `Scope.Image`: they agree in all that a run
reads but the number of its workers, and what has been entered into the two journals
since the start is the same up to a change of the costs.
-/

namespace KCut

variable {α β γ δ γ' δ' : Type}

/-- Two checked computations with related results, or with the same fault. -/
inductive Alike (R : γ → δ → Prop) : Except Fault γ → Except Fault δ → Prop
  | ok {c : γ} {d : δ} (h : R c d) : Alike R (.ok c) (.ok d)
  | fault (fault : Fault) : Alike R (.error fault) (.error fault)

namespace Alike

variable {R R' : γ → δ → Prop} {x : Except Fault γ} {y : Except Fault δ}

theorem mono (h : Alike R x y) (himp : ∀ c d, R c d → R' c d) : Alike R' x y := by
  cases h with
  | ok h => exact .ok (himp _ _ h)
  | fault fault => exact .fault fault

theorem bind {R' : γ' → δ' → Prop} {f : γ → Except Fault γ'} {g : δ → Except Fault δ'}
    (h : Alike R x y) (hfg : ∀ c d, R c d → Alike R' (f c) (g d)) :
    Alike R' (x >>= f) (y >>= g) := by
  cases h with
  | ok h => exact hfg _ _ h
  | fault fault => exact .fault fault

/-- Computations with equal results, and what follows them. -/
theorem bind_eq {R' : γ' → δ' → Prop} {x y : Except Fault γ} {f : γ → Except Fault γ'}
    {g : γ → Except Fault δ'} (h : Alike Eq x y) (hfg : ∀ c, Alike R' (f c) (g c)) :
    Alike R' (x >>= f) (y >>= g) :=
  h.bind fun c _ heq => heq ▸ hfg c

/-- A computation is like itself. -/
theorem refl (x : Except Fault γ) : Alike Eq x x := by
  cases x with
  | ok c => exact .ok rfl
  | error fault => exact .fault fault

theorem exists_of_ok {c : γ} (h : Alike R (.ok c) y) : ∃ d, y = .ok d ∧ R c d := by
  cases h with
  | ok h => exact ⟨_, rfl, h⟩

theorem eq_error {fault : Fault} (h : Alike R (.error fault) y) : y = .error fault := by
  cases h with
  | fault fault => rfl

theorem exists_of_ok' {d : δ} (h : Alike R x (.ok d)) : ∃ c, x = .ok c ∧ R c d := by
  cases h with
  | ok h => exact ⟨_, rfl, h⟩

theorem eq_error' {fault : Fault} (h : Alike R x (.error fault)) : x = .error fault := by
  cases h with
  | fault fault => rfl

theorem eq_of_alike {x y : Except Fault γ} (h : Alike Eq x y) : x = y := by
  cases h with
  | ok h => rw [h]
  | fault fault => rfl

end Alike

/-! ### Steps side by side -/

namespace Run

/-- From scopes that `S` joins, the two steps have results that `R` joins and leave
scopes that `S` joins, or they end in the same fault. -/
def Simulates (S : Scope α → Scope β → Prop) (R : γ → δ → Prop) (m : Run α γ) (n : Run β δ) :
    Prop :=
  ∀ s s', S s s' → Alike (fun p q => R p.1 q.1 ∧ S p.2 q.2) (m s) (n s')

variable {S : Scope α → Scope β → Prop} {R : γ → δ → Prop}

theorem simulates_pure {c : γ} {d : δ} (h : R c d) : Simulates S R (pure c) (pure d) :=
  fun _ _ hs => .ok ⟨h, hs⟩

theorem Simulates.bind {R' : γ' → δ' → Prop} {m : Run α γ} {n : Run β δ} {f : γ → Run α γ'}
    {g : δ → Run β δ'} (h : Simulates S R m n)
    (hfg : ∀ c d, R c d → Simulates S R' (f c) (g d)) : Simulates S R' (m >>= f) (n >>= g) :=
  fun s s' hs => (h s s' hs).bind fun p q hpost => hfg p.1 q.1 hpost.1 p.2 q.2 hpost.2

/-- Steps with equal results, and what follows them. -/
theorem Simulates.bind_eq {R' : γ' → δ' → Prop} {m : Run α γ} {n : Run β γ} {f : γ → Run α γ'}
    {g : γ → Run β δ'} (h : Simulates S Eq m n) (hfg : ∀ c, Simulates S R' (f c) (g c)) :
    Simulates S R' (m >>= f) (n >>= g) :=
  h.bind fun c _ heq => heq ▸ hfg c

/-- A step goes the same way from equal scopes. -/
theorem simulates_self (m : Run α γ) : Simulates Eq Eq m m := by
  rintro s _ rfl
  exact (Alike.refl (m s)).mono fun _ _ heq => ⟨congrArg Prod.fst heq, congrArg Prod.snd heq⟩

/-- Checked computations change nothing. -/
theorem simulates_check {x : Except Fault γ} {y : Except Fault δ} (h : Alike R x y) :
    Simulates S R (check x) (check y) := by
  intro s s' hs
  cases h with
  | ok h => exact .ok ⟨h, hs⟩
  | fault fault => exact .fault fault

/-- A checked computation with a known result hands it on. -/
theorem check_ok_bind (c : γ) (f : γ → Run α δ) : (Run.check (.ok c) >>= f) = f c := rfl

/-- Checked computations with known results, and what follows them. -/
theorem Simulates.check {R' : γ' → δ' → Prop} {x : Except Fault γ} {y : Except Fault δ} {c : γ}
    {d : δ} (hx : x = .ok c) (hy : y = .ok d) {f : γ → Run α γ'} {g : δ → Run β δ'}
    (hfg : Simulates S R' (f c) (g d)) :
    Simulates S R' (Run.check x >>= f) (Run.check y >>= g) := by
  rw [hx, hy, check_ok_bind, check_ok_bind]
  exact hfg

theorem Simulates.mono {R' : γ → δ → Prop} {m : Run α γ} {n : Run β δ} (h : Simulates S R m n)
    (himp : ∀ c d, R c d → R' c d) : Simulates S R' m n :=
  fun s s' hs => (h s s' hs).mono fun p q hpost => ⟨himp p.1 q.1 hpost.1, hpost.2⟩

/-- What is known of the results of the first step from itself. -/
theorem Simulates.and_ensures {post : γ → Prop} {m : Run α γ} {n : Run β δ}
    (h : Simulates S R m n) (hpost : ∀ s, m.Ensures s fun c _ => post c) :
    Simulates S (fun c d => post c ∧ R c d) m n := by
  intro s s' hs
  have hboth := h s s' hs
  have hfirst := hpost s
  unfold Ensures at hfirst
  generalize m s = x at hboth hfirst ⊢
  generalize n s' = y at hboth ⊢
  cases hboth with
  | ok hboth => exact .ok ⟨⟨hfirst _ _ rfl, hboth.1⟩, hboth.2⟩
  | fault fault => exact .fault fault

end Run

/-! ### Scopes of twin runs -/

/-- What a run starts from: its workers, and the entries made before it. -/
structure Base (α : Type) where
  workers : Nat
  journal : Journal α

/-- The scopes of two runs that have started from `base` and `base'` agree in what changes
during a run, and the entries made since are the same up to the change `f` of the costs. -/
structure Scope.Image (f : α → β) (base : Base α) (base' : Base β) (s : Scope α)
    (s' : Scope β) : Prop where
  concurrency_eq : s.concurrency = base.workers
  concurrency_eq' : s'.concurrency = base'.workers
  stream_eq : s'.stream = s.stream
  termination_eq : s'.termination = s.termination
  statistics_eq : s'.statistics = s.statistics
  journal_eq : ∃ j : Journal α, s.journal = base.journal ++ j ∧
    s'.journal = base'.journal ++ j.mapCosts f

namespace Scope.Image

variable {f : α → β} {base : Base α} {base' : Base β} {s : Scope α} {s' : Scope β}

/-- Entries that are made on both sides. -/
theorem journal_push (h : Scope.Image f base base' s s') (entry : Entry α) :
    ∃ j : Journal α, s.journal.push entry = base.journal ++ j ∧
      s'.journal.push (entry.mapCost f) = base'.journal ++ j.mapCosts f := by
  obtain ⟨j, hj, hj'⟩ := h.journal_eq
  refine ⟨j.push entry, ?_, ?_⟩
  · rw [hj, Array.push_append]
  · rw [hj', Journal.mapCosts_push, Array.push_append]

end Scope.Image

namespace Run

variable {f : α → β} {base : Base α} {base' : Base β}

theorem simulates_enter (entry : Entry α) :
    Simulates (Scope.Image f base base') Eq (enter entry)
      (enter (entry.mapCost f)) :=
  fun _ _ hs => .ok ⟨rfl, hs.concurrency_eq, hs.concurrency_eq', hs.stream_eq,
    hs.termination_eq, hs.statistics_eq, hs.journal_push entry⟩

theorem simulates_begin (task : Task) :
    Simulates (Scope.Image f base base') Eq (begin task) (begin task) :=
  simulates_enter (.task (.began task))

theorem simulates_finish (task : Task) :
    Simulates (Scope.Image f base base') Eq (finish task) (finish task) :=
  simulates_enter (.task (.ended task))

theorem simulates_note (n : Note α) :
    Simulates (Scope.Image f base base') Eq (note n) (note (n.mapCost f)) :=
  simulates_enter (.noted n)

theorem simulates_count (change : Statistics → Statistics) :
    Simulates (Scope.Image f base base') Eq (count change) (count change) :=
  fun _ _ hs => .ok ⟨rfl, hs.concurrency_eq, hs.concurrency_eq', hs.stream_eq,
    hs.termination_eq, congrArg change hs.statistics_eq, hs.journal_eq⟩

/-- Each run has the number of workers that it has started with. -/
theorem simulates_concurrency :
    Simulates (Scope.Image f base base') (fun w w' => w = base.workers ∧ w' = base'.workers)
      concurrency concurrency :=
  fun _ _ hs => .ok ⟨⟨hs.concurrency_eq, hs.concurrency_eq'⟩, hs⟩

/-- Polls have the same answer. -/
theorem simulates_poll : Simulates (Scope.Image f base base') Eq poll poll := by
  intro s s' hs
  refine .ok ⟨?_, hs.concurrency_eq, hs.concurrency_eq', hs.stream_eq, ?_, hs.statistics_eq, ?_⟩
  · rw [hs.termination_eq]
  · rw [hs.termination_eq]
  · rw [hs.termination_eq, hs.stream_eq]
    exact hs.journal_push (.polled s.termination.poll.1 s.stream.position)

/-- Draws give the same number. -/
theorem simulates_draw (low high : Nat) :
    Simulates (Scope.Image f base base') (fun x x' => low ≤ x ∧ x' = x) (draw low high)
      (draw low high) := by
  intro s s' hs
  rw [draw, draw, hs.stream_eq]
  cases hx : s.stream.range low high with
  | ok r =>
      exact .ok ⟨⟨Random.Stream.low_le_of_range hx, rfl⟩, hs.concurrency_eq, hs.concurrency_eq',
        rfl, hs.termination_eq, hs.statistics_eq, hs.journal_eq⟩
  | error fault => exact .fault fault

theorem simulates_split : Simulates (Scope.Image f base base') Eq split split := by
  intro s s' hs
  rw [split, split, hs.stream_eq]
  exact .ok ⟨rfl, hs.concurrency_eq, hs.concurrency_eq', rfl, hs.termination_eq,
    hs.statistics_eq, hs.journal_eq⟩

end Run

end KCut
