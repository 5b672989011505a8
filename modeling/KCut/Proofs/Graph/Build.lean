import KCut.Proofs.Graph.Incidence

/-!
# KCut.Proofs.Graph.Build

Building a graph loses, invents and reorders nothing.

A list is refused iff one of its edges is `Faulty`, and it is the first such edge that the
problem names. Every other list gives a graph that `Stores` it: a traversal of a node
reports the edges at that node in the order they were given, an undirected edge at both of
its ends. While the rows are being filled, every relationship goes to a slot of its own row
(`Rows.slots_mem_row`).
-/

namespace KCut

/-! ### Slots of the fill -/

namespace Rows

/-- **No slot lies outside of its row**: the cursor of a row never passes its end, since the
row has room for all keys that were counted. -/
theorem slots_mem_row {n : Nat} {offsets : Array Nat} {keys : List Nat}
    (hkeys : ∀ k ∈ keys, k < n) (hoffsets : ∀ v ≤ n, offsets[v]? = some (rowStart keys v))
    (done rest : List Nat) (hdone : keys = done ++ rest) :
    ∀ e ∈ done.zip (slots offsets done).toList,
      rowStart keys e.1 ≤ e.2 ∧ e.2 < rowStart keys (e.1 + 1) := by
  induction done using List.reverseRecOn generalizing rest with
  | nil => simp
  | append_singleton done k ih =>
      rw [List.append_assoc] at hdone
      have hk : k < n := hkeys k (by simp [hdone])
      have hlen : (slots offsets done).toList.length = done.length := by
        rw [Array.length_toList, size_slots]
      rw [slots_concat done (hoffsets k (by omega)), Array.toList_push,
        List.zip_append hlen.symm]
      intro e he
      rcases List.mem_append.1 he with hearlier | hlast
      · exact ih _ hdone e hearlier
      · -- The new key has been counted too, so its row ends behind the cursor.
        obtain rfl : e = (k, rowStart keys k + done.count k) := by simpa using hlast
        have hroom : done.count k < keys.count k := by
          rw [hdone, List.count_append, List.count_append, List.count_singleton_self]
          omega
        have hnext := rowStart_succ keys k
        dsimp only
        omega

/-- Building rows writes every item into its own row. -/
theorem slots_ofList_mem_row {β : Type} [Inhabited β] {n : Nat} {entries : List (Nat × β)}
    (hkeys : ∀ k ∈ entries.map (·.1), k < n) :
    ∀ e ∈ (entries.map (·.1)).zip
        (slots (ofList n entries).offsets (entries.map (·.1))).toList,
      (ofList n entries).offsets.getD e.1 0 ≤ e.2 ∧
        e.2 < (ofList n entries).offsets.getD (e.1 + 1) 0 := by
  intro e he
  have hlt : e.1 < n := hkeys _ (List.of_mem_zip he).1
  rw [offsets_ofList_getD (Nat.le_of_lt hlt), offsets_ofList_getD (show e.1 + 1 ≤ n from hlt)]
  exact slots_mem_row hkeys (fun v hv => offsets_ofList_getElem? hv) _ []
    (List.append_nil _).symm e he

/-- A row has as many slots as there are items with its key. -/
theorem rowSize_ofList {β : Type} [Inhabited β] {n v : Nat} (entries : List (Nat × β))
    (hv : v < n) : (ofList n entries).rowSize v = (withKey v entries).length := by
  have hnext := rowStart_succ (entries.map (·.1)) v
  rw [rowSize, offsets_ofList_getD (show v + 1 ≤ n from hv), offsets_ofList_getD (Nat.le_of_lt hv),
    length_withKey]
  omega

/-- The items with a key, from a list of lists. -/
theorem withKey_flatMap {β γ : Type} (v : Nat) (l : List γ) (f : γ → List (Nat × β)) :
    withKey v (l.flatMap f) = l.flatMap fun x => withKey v (f x) := by
  rw [withKey, List.filter_flatMap, List.map_flatMap]
  rfl

end Rows

/-! ### Faulty edges -/

section

variable {α : Type} [Weight α]

/-- The edge cannot belong to a graph of that many nodes: one of its ends is out of range or
its weight is not finite. -/
def Edge.Faulty (nodeCount : Nat) (e : Edge α) : Prop :=
  nodeCount ≤ e.source ∨ nodeCount ≤ e.target ∨
    ∃ w, e.weight = some w ∧ Weight.isFinite w = false

theorem Edge.problem?_of_outOfRange {nodeCount : Nat} {e : Edge α}
    (h : nodeCount ≤ e.source ∨ nodeCount ≤ e.target) :
    e.problem? nodeCount = some (.outOfRange e.source e.target nodeCount) :=
  if_pos h

theorem Edge.problem?_of_nonFinite {nodeCount : Nat} {e : Edge α} {w : α}
    (hsource : e.source < nodeCount) (htarget : e.target < nodeCount) (hw : e.weight = some w)
    (hfinite : Weight.isFinite w = false) :
    e.problem? nodeCount = some (.nonFinite e.source e.target w) := by
  rw [Edge.problem?, if_neg (by omega), hw]
  simp [hfinite]

theorem Edge.problem?_isSome_iff {nodeCount : Nat} {e : Edge α} :
    (e.problem? nodeCount).isSome ↔ e.Faulty nodeCount := by
  by_cases hrange : nodeCount ≤ e.source ∨ nodeCount ≤ e.target
  · rw [Edge.problem?_of_outOfRange hrange]
    simp only [Option.isSome_some, Edge.Faulty, true_iff]
    exact hrange.imp_right Or.inl
  · rw [Edge.problem?, if_neg hrange, Edge.Faulty, ← or_assoc, or_iff_right hrange]
    cases e.weight with
    | none => simp
    | some w => cases hfinite : Weight.isFinite w <;> simp [hfinite]

namespace EdgeList

theorem problem?_isSome_iff {l : EdgeList α} :
    l.problem?.isSome ↔ ∃ e ∈ l.edges, e.Faulty l.nodeCount := by
  rw [problem?, List.findSome?_isSome_iff]
  simp only [Edge.problem?_isSome_iff]

theorem build_eq_error_iff (l : EdgeList α) (problem : EdgeProblem α) :
    l.build = .error problem ↔ l.problem? = some problem := by
  cases h : l.problem? <;> simp [build, h]

theorem exists_build_eq_error_iff (l : EdgeList α) :
    (∃ problem, l.build = .error problem) ↔ ∃ e ∈ l.edges, e.Faulty l.nodeCount := by
  simp only [build_eq_error_iff, ← problem?_isSome_iff, Option.isSome_iff_exists]

/-- The first faulty edge is the one that is named. -/
theorem build_of_first {l : EdgeList α} {before after : List (Edge α)} {e : Edge α}
    {problem : EdgeProblem α} (hedges : l.edges = before ++ e :: after)
    (hbefore : ∀ x ∈ before, ¬ x.Faulty l.nodeCount)
    (hproblem : e.problem? l.nodeCount = some problem) : l.build = .error problem := by
  have hnone : before.findSome? (Edge.problem? l.nodeCount) = none :=
    List.findSome?_eq_none_iff.2 fun x hx => by
      rw [← Option.not_isSome_iff_eq_none, Edge.problem?_isSome_iff]
      exact hbefore x hx
  rw [build_eq_error_iff, problem?, hedges, List.findSome?_append, hnone, List.findSome?_cons,
    hproblem]
  rfl

/-! ### What is stored -/

/-- The edges of a list as a traversal of node `v` has to report them, in the order they
were given: from the source of each and, if the list is undirected, from its target too. -/
def visitsOf (l : EdgeList α) (fallback : α) (v : Nat) : List (Nat × Nat × α) :=
  l.edges.flatMap fun e =>
    let weight := if l.edges.any (·.weight.isSome) then e.weight.getD 1 else fallback
    (if e.source = v then [(v, e.target, weight)] else []) ++
      if l.undirected ∧ e.target = v then [(v, e.source, weight)] else []

/-- The relationships of one edge at node `v`. -/
theorem withKey_stored (undirected : Bool) (v : Nat) (e : Edge α) :
    Rows.withKey v (e.stored undirected) =
      (if e.source = v then [⟨e.target, e.weightOrOne⟩] else []) ++
        if undirected ∧ e.target = v then [⟨e.source, e.weightOrOne⟩] else [] := by
  cases undirected <;> by_cases hs : e.source = v <;> by_cases ht : e.target = v <;>
    simp [Rows.withKey, Edge.stored, hs, ht]

theorem visits_toGraph {l : EdgeList α} (h : l.problem? = none) (fallback : α) {v : Nat}
    (hv : v < l.nodeCount) : l.toGraph.visits fallback v = .ok (l.visitsOf fallback v) := by
  have wf : l.toGraph.WellFormed :=
    wellFormed_of_build ((build_eq_ok_iff l _).2 ⟨h, rfl⟩)
  rw [Graph.visits, wf.arcs_eq hv, ok_bind, row_toGraph h hv, stored, Rows.withKey_flatMap,
    List.map_flatMap, pure_eq_ok, visitsOf]
  congr 1
  refine List.flatMap_congr fun e _ => ?_
  rw [withKey_stored, List.map_append, apply_ite (List.map _), apply_ite (List.map _)]
  rfl

end EdgeList

end

/-! ### Visitors that stop -/

section

variable {σ β : Type}

/-- The state of a visitor after it has seen some items. -/
def stateAfter (visitor : σ → β → σ × Bool) (start : σ) (seen : List β) : σ :=
  seen.foldl (fun s x => (visitor s x).1) start

/-- What a visitor has seen of some items, beginning in a state: it has asked to continue
behind every item that it has seen but the last one, and it has seen all of the items
unless it has asked to stop there. -/
structure Saw (visitor : σ → β → σ × Bool) (start : σ) (items seen : List β) : Prop where
  prefix_of : seen <+: items
  goes : ∀ before x after, seen = before ++ x :: after → after ≠ [] →
    (visitor (stateAfter visitor start before) x).2 = true
  stops : seen ≠ items → ∃ before x, seen = before ++ [x] ∧
    (visitor (stateAfter visitor start before) x).2 = false

/-- **A visitor sees a beginning of the list**, up to its first stop. -/
theorem foldWhile_saw (visitor : σ → β → σ × Bool) (start : σ) (items : List β) :
    ∃ seen, Saw visitor start items seen ∧
      foldWhile visitor start items = stateAfter visitor start seen := by
  induction items generalizing start with
  | nil => exact ⟨[], ⟨List.prefix_rfl, by simp, by simp⟩, rfl⟩
  | cons y items ih =>
      cases hy : visitor start y with
      | mk next continues =>
      cases continues with
      | false =>
          refine ⟨[y], ⟨⟨items, rfl⟩, ?_, fun _ => ⟨[], y, rfl, by rw [stateAfter]; simp [hy]⟩⟩, ?_⟩
          · intro before x after hseen hafter
            simp [List.cons_eq_append_iff, hafter] at hseen
          · simp [foldWhile, stateAfter, hy]
      | true =>
          obtain ⟨seen, hsaw, hstate⟩ := ih next
          have hafter (l : List β) :
              stateAfter visitor start (y :: l) = stateAfter visitor next l := by
            rw [stateAfter, List.foldl_cons, hy, stateAfter]
          refine ⟨y :: seen, ⟨?_, ?_, ?_⟩, ?_⟩
          · exact (List.prefix_cons_inj y).2 hsaw.prefix_of
          · intro before x after hseen hmore
            cases before with
            | nil =>
                obtain ⟨rfl, -⟩ := List.cons.inj hseen
                rw [stateAfter, List.foldl_nil, hy]
            | cons z before =>
                obtain ⟨rfl, hrest⟩ := List.cons.inj hseen
                rw [hafter]
                exact hsaw.goes before x after hrest hmore
          · intro hleft
            obtain ⟨before, x, rfl, hstop⟩ := hsaw.stops fun h => hleft (by rw [h])
            exact ⟨y :: before, x, rfl, by rw [hafter]; exact hstop⟩
          · rw [hafter, ← hstate, foldWhile, hy]

/-- A visitor that never stops sees everything. -/
theorem Saw.eq_of_continues {visitor : σ → β → σ × Bool} {start : σ} {items seen : List β}
    (h : Saw visitor start items seen) (hgoes : ∀ s x, (visitor s x).2 = true) :
    seen = items := by
  by_contra hne
  obtain ⟨before, x, -, hstop⟩ := h.stops hne
  rw [hgoes] at hstop
  exact absurd hstop (by decide)

/-- A visitor that collects what it sees. -/
def collect (seen : List β) (x : β) : List β × Bool :=
  (seen ++ [x], true)

theorem stateAfter_collect (start items : List β) :
    stateAfter collect start items = start ++ items := by
  induction items generalizing start with
  | nil => rw [List.append_nil]; rfl
  | cons x items ih =>
      have hnext :
          stateAfter collect start (x :: items) = stateAfter collect (start ++ [x]) items :=
        rfl
      rw [hnext, ih, List.append_assoc, List.singleton_append]

end

/-! ### Built graphs -/

variable {α : Type} [Weight α]

/-- The graph holds the edges of a list and nothing else: all that it shows of a node is what
the list says of it, in the order of the list, and each relationship was written to a slot
of the row of its node. -/
structure Graph.Stores (g : Graph α) (l : EdgeList α) : Prop where
  nodeCount_eq : g.nodeCount = l.nodeCount
  /-- A visitor that always continues sees all edges at a node. -/
  traverse_collect : ∀ v < l.nodeCount, ∀ fallback,
    g.traverse fallback v collect [] = .ok (l.visitsOf fallback v)
  /-- Any other one sees them up to its first stop. -/
  traverse_eq : ∀ v < l.nodeCount, ∀ (fallback : α) (σ : Type)
    (visitor : σ → Nat × Nat × α → σ × Bool) (start : σ),
    ∃ seen, Saw visitor start (l.visitsOf fallback v) seen ∧
      g.traverse fallback v visitor start = .ok (stateAfter visitor start seen)
  degree_eq : ∀ v < l.nodeCount, ∀ fallback,
    g.degree v = .ok (l.visitsOf fallback v).length
  neighbors_eq : ∀ v < l.nodeCount, ∀ fallback,
    g.neighbors v = .ok ((l.visitsOf fallback v).map fun visit => visit.2.1)
  relationshipCount_eq : ∃ degree : Nat → Nat, (∀ v < l.nodeCount, g.degree v = .ok (degree v)) ∧
    g.relationshipCount = ((List.range l.nodeCount).map degree).sum
  size_slots : (Rows.slots g.outgoing.offsets (l.stored.map (·.1))).size = l.stored.length
  slots_mem_row : ∀ e ∈ (l.stored.map (·.1)).zip
      (Rows.slots g.outgoing.offsets (l.stored.map (·.1))).toList,
    g.outgoing.offsets.getD e.1 0 ≤ e.2 ∧ e.2 < g.outgoing.offsets.getD (e.1 + 1) 0

namespace EdgeList

theorem traverse_toGraph {l : EdgeList α} (h : l.problem? = none) (fallback : α) {v : Nat}
    (hv : v < l.nodeCount) {σ : Type} (visitor : σ → Nat × Nat × α → σ × Bool) (start : σ) :
    ∃ seen, Saw visitor start (l.visitsOf fallback v) seen ∧
      l.toGraph.traverse fallback v visitor start = .ok (stateAfter visitor start seen) := by
  obtain ⟨seen, hsaw, hstate⟩ := foldWhile_saw visitor start (l.visitsOf fallback v)
  refine ⟨seen, hsaw, ?_⟩
  rw [Graph.traverse, visits_toGraph h fallback hv, ok_bind, hstate, pure_eq_ok]

theorem degree_toGraph {l : EdgeList α} (h : l.problem? = none) {v : Nat} (hv : v < l.nodeCount) :
    l.toGraph.degree v = .ok (Rows.withKey v l.stored).length := by
  have wf : l.toGraph.WellFormed :=
    wellFormed_of_build ((build_eq_ok_iff l _).2 ⟨h, rfl⟩)
  rw [wf.degree_eq hv]
  exact congrArg _ (Rows.rowSize_ofList l.stored hv)

/-- **Building stores the list.** -/
theorem stores_of_build {l : EdgeList α} {g : Graph α} (h : l.build = .ok g) : g.Stores l := by
  obtain ⟨hnone, rfl⟩ := (build_eq_ok_iff l g).1 h
  have wf := wellFormed_of_build h
  have hkeys : ∀ k ∈ l.stored.map (·.1), k < l.nodeCount := by
    intro k hk
    obtain ⟨e, he, rfl⟩ := List.mem_map.1 hk
    exact (stored_lt hnone e he).1
  -- All views of a node are read off its row.
  have hvisits : ∀ v < l.nodeCount, ∀ fallback, l.visitsOf fallback v =
      (Rows.withKey v l.stored).map fun a =>
        (v, a.target, if l.toGraph.weighted then a.weight else fallback) := by
    intro v hv fallback
    have hrow := visits_toGraph hnone fallback hv
    rw [Graph.visits, wf.arcs_eq hv, ok_bind, row_toGraph hnone hv] at hrow
    exact (Except.ok.inj hrow).symm
  refine ⟨rfl, ?_, fun v hv fallback σ => traverse_toGraph hnone fallback hv, ?_, ?_, ?_,
    ?_, ?_⟩
  · intro v hv fallback
    obtain ⟨seen, hsaw, hstate⟩ := traverse_toGraph hnone fallback hv collect []
    rw [hstate, hsaw.eq_of_continues fun _ _ => rfl, stateAfter_collect, List.nil_append]
  · intro v hv fallback
    rw [degree_toGraph hnone hv, hvisits v hv, List.length_map]
  · intro v hv fallback
    rw [Graph.neighbors, wf.arcs_eq hv, ok_bind, row_toGraph hnone hv, hvisits v hv, List.map_map]
    rfl
  · exact ⟨l.toGraph.outgoing.rowSize, fun v hv => wf.degree_eq hv,
      (sum_degrees_of_build h).symm⟩
  · rw [Rows.size_slots, List.length_map]
  · exact Rows.slots_ofList_mem_row hkeys

/-- **Building a graph loses, invents and reorders nothing.** -/
theorem build_refuses_or_stores (l : EdgeList Float) :
    ((∃ problem, l.build = .error problem) ↔ ∃ e ∈ l.edges, e.Faulty l.nodeCount) ∧
    (∀ before e after, l.edges = before ++ e :: after →
      (∀ x ∈ before, ¬ x.Faulty l.nodeCount) → e.Faulty l.nodeCount →
      ∃ problem, l.build = .error problem ∧
        (l.nodeCount ≤ e.source ∨ l.nodeCount ≤ e.target → problem.message =
          s!"edge ({e.source}, {e.target}) out of range for {l.nodeCount} nodes") ∧
        (e.source < l.nodeCount → e.target < l.nodeCount → ∀ w, e.weight = some w →
          problem.message =
            s!"edge ({e.source}, {e.target}) has non-finite weight {nonFiniteText w}")) ∧
    ((∀ e ∈ l.edges, ¬ e.Faulty l.nodeCount) → ∃ g, l.build = .ok g ∧ g.Stores l) := by
  refine ⟨exists_build_eq_error_iff l, ?_, ?_⟩
  · intro before e after hedges hbefore hfaulty
    obtain ⟨problem, hproblem⟩ :=
      Option.isSome_iff_exists.1 (Edge.problem?_isSome_iff.2 hfaulty)
    refine ⟨problem, build_of_first hedges hbefore hproblem, ?_, ?_⟩
    · intro hrange
      rw [Edge.problem?_of_outOfRange hrange, Option.some.injEq] at hproblem
      rw [← hproblem]
      rfl
    · intro hsource htarget w hw
      have hfinite : Weight.isFinite w = false := by
        obtain hrange | hrange | ⟨w', hw', hfinite⟩ := hfaulty
        · omega
        · omega
        · rw [hw, Option.some.injEq] at hw'
          rw [hw', hfinite]
      rw [Edge.problem?_of_nonFinite hsource htarget hw hfinite, Option.some.injEq] at hproblem
      rw [← hproblem]
      rfl
  · intro hgood
    have hnone : l.problem? = none := by
      rw [← Option.not_isSome_iff_eq_none, problem?_isSome_iff]
      rintro ⟨e, he, hfaulty⟩
      exact hgood e he hfaulty
    have hbuild : l.build = .ok l.toGraph := (build_eq_ok_iff l _).2 ⟨hnone, rfl⟩
    exact ⟨l.toGraph, hbuild, stores_of_build hbuild⟩

/-- An edge and a loop, which is stored twice at its node; and the same list with two edges
out of range behind them, of which the first one is named. -/
theorem build_loop_and_strays :
    let l : EdgeList Float := ⟨2, true, [⟨0, 1, none⟩, ⟨1, 1, none⟩]⟩
    let l' : EdgeList Float := { l with edges := l.edges ++ [⟨0, 2, none⟩, ⟨5, 0, none⟩] }
    (∃ g, l.build = .ok g ∧ ∀ w,
      g.traverse w 1 collect [] = .ok [(1, 0, w), (1, 1, w), (1, 1, w)]) ∧
    ∃ problem, l'.build = .error problem ∧
      problem.message = "edge (0, 2) out of range for 2 nodes" := by
  intro l l'
  have hgood : ∀ e ∈ l.edges, ¬ e.Faulty l.nodeCount := by
    intro e he
    simp only [l, List.mem_cons, List.not_mem_nil, or_false] at he
    rcases he with rfl | rfl <;> simp [Edge.Faulty, l]
  constructor
  · obtain ⟨g, hbuild, hstores⟩ := (build_refuses_or_stores l).2.2 hgood
    refine ⟨g, hbuild, fun w => ?_⟩
    rw [hstores.traverse_collect 1 (by decide) w]
    rfl
  · obtain ⟨problem, hbuild, hrange, -⟩ := (build_refuses_or_stores l').2.1 l.edges
      ⟨0, 2, none⟩ [⟨5, 0, none⟩] rfl hgood (Or.inr (Or.inl (by decide)))
    refine ⟨problem, hbuild, ?_⟩
    rw [hrange (Or.inr (by decide))]
    decide +kernel

end EdgeList

end KCut
