import KCut.Graph.EdgeList
import KCut.Graph.Incoming
import KCut.Proofs.Checked
import KCut.Proofs.Graph.Rows

/-!
# KCut.Proofs.Graph.Incidence

The incident relationships of a node, seen from both ends.

A graph that was built from an edge list is *well-formed*: its rows are there,
they lead to nodes, and an undirected graph stores the same weights at both ends
of a pair. From this alone it follows that incidence is symmetric
(`linked_iff_mem_incidents`), for two different reasons: an undirected edge is
stored twice, and a directed graph is searched along its reverse adjacency too.
-/

namespace KCut

variable {α : Type}

namespace Graph

/-- Of blocks of which only one holds anything, only that one counts. -/
theorem flatMap_range_single {γ : Type} {f : Nat → List γ} {n u : Nat} (hu : u < n)
    (h : ∀ w, w ≠ u → f w = []) : (List.range n).flatMap f = f u := by
  induction n with
  | zero => omega
  | succ n ih =>
      rw [List.range_succ, List.flatMap_append, List.flatMap_singleton]
      rcases Nat.lt_or_eq_of_le (Nat.le_of_lt_succ hu) with hlt | rfl
      · rw [ih hlt, h n (by omega), List.append_nil]
      · have hnil : (List.range u).flatMap f = [] :=
          List.flatMap_eq_nil_iff.2 fun w hw => h w (by rw [List.mem_range] at hw; omega)
        rw [hnil, List.nil_append]

/-! ### Views of a graph -/

/-- The weights of the relationships stored at `v` that lead to `u`, in order. -/
def between (g : Graph α) (v u : Nat) : List α :=
  ((g.outgoing.row v).filter (·.target = u)).map (·.weight)

/-- The relationships with `v` as one end, the other end as their target. -/
def incidents [Weight α] (g : Graph α) (v : Nat) : List (Arc α) :=
  g.outgoing.row v ++ if g.undirected then [] else g.incoming.row v

/-- Two different nodes are joined by a relationship, in either direction. -/
def Linked (g : Graph α) (u v : Nat) : Prop :=
  u ≠ v ∧ ((∃ a ∈ g.outgoing.row u, a.target = v) ∨ ∃ a ∈ g.outgoing.row v, a.target = u)

instance (g : Graph α) (u v : Nat) : Decidable (g.Linked u v) :=
  inferInstanceAs (Decidable (_ ∧ _))

theorem Linked.symm {g : Graph α} {u v : Nat} (h : g.Linked u v) : g.Linked v u :=
  ⟨h.1.symm, h.2.symm⟩

theorem mem_targets_iff {g : Graph α} {v u : Nat} :
    (∃ a ∈ g.outgoing.row v, a.target = u) ↔ g.between v u ≠ [] := by
  simp [between, List.filter_eq_nil_iff]

/-- What holds of every graph that was built from an edge list. -/
structure WellFormed (g : Graph α) : Prop where
  size_offsets : g.outgoing.offsets.size = g.nodeCount + 1
  fits : g.outgoing.Fits
  target_lt : ∀ {v : Nat}, v < g.nodeCount → ∀ a ∈ g.outgoing.row v, a.target < g.nodeCount
  between_comm : g.undirected = true → ∀ {v u : Nat}, v < g.nodeCount → u < g.nodeCount →
    g.between v u = g.between u v

namespace WellFormed

variable {g : Graph α}

theorem arcs_eq (wf : g.WellFormed) {v : Nat} (hv : v < g.nodeCount) :
    g.arcs v = .ok (g.outgoing.row v) :=
  wf.fits.row?_eq_ok (by rw [wf.size_offsets]; omega)

theorem degree_eq (wf : g.WellFormed) {v : Nat} (hv : v < g.nodeCount) :
    g.degree v = .ok (g.outgoing.rowSize v) :=
  wf.fits.rowSize?_eq_ok (by rw [wf.size_offsets]; omega)

theorem reversed_lt (wf : g.WellFormed) : ∀ e ∈ g.reversed, e.1 < g.nodeCount := by
  intro e he
  simp only [reversed, List.mem_flatMap, List.mem_range, List.mem_map] at he
  obtain ⟨v, hv, a, ha, rfl⟩ := he
  exact wf.target_lt hv a ha

variable [Weight α]

theorem incoming_row (wf : g.WellFormed) {v : Nat} (hv : v < g.nodeCount) :
    g.incoming.row v = Rows.withKey v g.reversed :=
  Rows.row_ofList wf.reversed_lt hv

/-- A relationship enters `v` iff it is stored at its other end. -/
theorem mem_incoming_row (wf : g.WellFormed) {v : Nat} (hv : v < g.nodeCount) (a : Arc α) :
    a ∈ g.incoming.row v ↔
      a.target < g.nodeCount ∧ (⟨v, a.weight⟩ : Arc α) ∈ g.outgoing.row a.target := by
  rw [wf.incoming_row hv]
  simp only [Rows.withKey, reversed, List.mem_map, List.mem_filter, List.mem_flatMap,
    List.mem_range, decide_eq_true_eq]
  constructor
  · intro hentry
    obtain ⟨e, ⟨⟨w, hw, b, hb, rfl⟩, rfl⟩, rfl⟩ := hentry
    exact ⟨hw, hb⟩
  · intro hstored
    obtain ⟨ht, hmem⟩ := hstored
    exact ⟨(v, a), ⟨⟨a.target, ht, ⟨v, a.weight⟩, hmem, rfl⟩, rfl⟩, rfl⟩

theorem incidents_lt (wf : g.WellFormed) {v : Nat} (hv : v < g.nodeCount) :
    ∀ a ∈ g.incidents v, a.target < g.nodeCount := by
  intro a ha
  rw [incidents, List.mem_append] at ha
  rcases ha with ha | ha
  · exact wf.target_lt hv a ha
  · split at ha
    · exact absurd ha List.not_mem_nil
    · exact ((wf.mem_incoming_row hv a).1 ha).1

/-- **Incidence is symmetric**: the nodes joined to `v` are the other ends of its
incident relationships, whichever way they are stored. -/
theorem linked_iff_mem_incidents (wf : g.WellFormed) {v u : Nat} (hv : v < g.nodeCount)
    (hu : u < g.nodeCount) :
    g.Linked u v ↔ u ≠ v ∧ ∃ a ∈ g.incidents v, a.target = u := by
  refine and_congr_right fun _ => ?_
  simp only [incidents, List.mem_append, or_and_right, exists_or]
  cases hdir : g.undirected with
  | true =>
      -- Stored at both ends.
      rw [mem_targets_iff, mem_targets_iff, wf.between_comm hdir hu hv]
      simp
  | false =>
      -- Followed backwards.
      have hincoming : (∃ a ∈ g.incoming.row v, a.target = u) ↔
          ∃ a ∈ g.outgoing.row u, a.target = v := by
        constructor
        · intro hlinked
          obtain ⟨a, ha, rfl⟩ := hlinked
          exact ⟨⟨v, a.weight⟩, ((wf.mem_incoming_row hv a).1 ha).2, rfl⟩
        · intro hlinked
          obtain ⟨a, ha, rfl⟩ := hlinked
          exact ⟨⟨u, a.weight⟩, (wf.mem_incoming_row hv _).2 ⟨hu, ha⟩, rfl⟩
      simp only [Bool.false_eq_true, ↓reduceIte, hincoming]
      exact or_comm

/-- The relationships that enter `v` from `u` are those stored at `u` that lead
to `v`. -/
theorem incoming_between (wf : g.WellFormed) {v u : Nat} (hv : v < g.nodeCount)
    (hu : u < g.nodeCount) :
    ((g.incoming.row v).filter (·.target = u)).map (·.weight) = g.between u v := by
  rw [wf.incoming_row hv, Rows.withKey, reversed, List.filter_flatMap, List.map_flatMap,
    List.filter_flatMap, List.map_flatMap, flatMap_range_single hu]
  · simp only [between, List.filter_map, List.map_map, List.filter_filter]
    congr 1
    exact List.filter_congr fun a _ => by simp
  · intro w hw
    simp [List.filter_map, hw]

/-- The weights that lie between a node and another one, seen from the node. -/
theorem incidents_between (wf : g.WellFormed) {v u : Nat} (hv : v < g.nodeCount)
    (hu : u < g.nodeCount) :
    ((g.incidents v).filter (·.target = u)).map (·.weight) =
      g.between v u ++ if g.undirected then [] else g.between u v := by
  rw [incidents, List.filter_append, List.map_append]
  congr 1
  split
  · rfl
  · exact wf.incoming_between hv hu

end WellFormed

end Graph

/-! ### Graphs of edge lists -/

namespace EdgeList

variable [Weight α]

theorem ends_lt_of_problem?_eq_none {l : EdgeList α} (h : l.problem? = none) :
    ∀ e ∈ l.edges, e.source < l.nodeCount ∧ e.target < l.nodeCount := by
  intro e he
  have hnone := List.findSome?_eq_none_iff.1 h e he
  unfold Edge.problem? at hnone
  split at hnone
  · exact absurd hnone (by simp)
  · next hends => omega

theorem stored_lt {l : EdgeList α} (h : l.problem? = none) :
    ∀ e ∈ l.stored, e.1 < l.nodeCount ∧ e.2.target < l.nodeCount := by
  intro e he
  simp only [stored, Edge.stored, List.mem_flatMap, List.mem_cons] at he
  obtain ⟨x, hx, rfl | hback⟩ := he
  · exact ends_lt_of_problem?_eq_none h x hx
  · split at hback
    · rw [List.mem_singleton] at hback
      subst hback
      exact (ends_lt_of_problem?_eq_none h x hx).symm
    · exact absurd hback List.not_mem_nil

theorem row_toGraph {l : EdgeList α} (h : l.problem? = none) {v : Nat} (hv : v < l.nodeCount) :
    l.toGraph.outgoing.row v = Rows.withKey v l.stored :=
  Rows.row_ofList (fun e he => (stored_lt h e he).1) hv

/-- An undirected edge is stored alike at both of its ends. -/
theorem between_stored_comm (e : Edge α) (v u : Nat) :
    ((Rows.withKey v (Edge.stored true e)).filter (·.target = u)).map (·.weight) =
      ((Rows.withKey u (Edge.stored true e)).filter (·.target = v)).map (·.weight) := by
  simp only [Edge.stored, ↓reduceIte, Rows.withKey]
  by_cases hsv : e.source = v <;> by_cases htu : e.target = u <;>
    by_cases hsu : e.source = u <;> by_cases htv : e.target = v <;>
    simp_all

theorem between_toGraph {l : EdgeList α} (h : l.problem? = none) {v u : Nat}
    (hv : v < l.nodeCount) :
    l.toGraph.between v u = l.edges.flatMap fun e =>
      ((Rows.withKey v (Edge.stored l.undirected e)).filter (·.target = u)).map (·.weight) := by
  rw [Graph.between, row_toGraph h hv, Rows.withKey, stored, List.filter_flatMap,
    List.map_flatMap, List.filter_flatMap, List.map_flatMap]
  rfl

/-- **Building gives a well-formed graph.** -/
theorem wellFormed_of_build {l : EdgeList α} {g : Graph α} (h : l.build = .ok g) :
    g.WellFormed := by
  obtain ⟨hnone, rfl⟩ := (build_eq_ok_iff l g).1 h
  refine ⟨Rows.size_offsets_ofList _ _, Rows.fits_ofList _ _, fun hv a ha => ?_,
    fun hdir v u hv hu => ?_⟩
  · rw [row_toGraph hnone hv, Rows.withKey, List.mem_map] at ha
    obtain ⟨e, he, rfl⟩ := ha
    exact (stored_lt hnone e (List.mem_filter.1 he).1).2
  · have hdir' : l.undirected = true := hdir
    rw [between_toGraph hnone hv, between_toGraph hnone hu, hdir']
    exact List.flatMap_congr fun e _ => between_stored_comm e v u

/-- The degrees add up to the number of stored relationships. -/
theorem sum_degrees_of_build {l : EdgeList α} {g : Graph α} (h : l.build = .ok g) :
    g.degrees.sum = g.relationshipCount := by
  obtain ⟨-, rfl⟩ := (build_eq_ok_iff l g).1 h
  exact Rows.sum_rowSize_ofList

/-- A triangle with parallel edges, a loop and a weight below zero, directed or
undirected: a small graph of every kind of edge. -/
def triangle (undirected : Bool) : EdgeList Rat where
  nodeCount := 3
  undirected := undirected
  edges := [⟨0, 1, some 2⟩, ⟨0, 1, none⟩, ⟨1, 2, some (-1)⟩, ⟨2, 2, some 5⟩, ⟨2, 0, some 1⟩]

theorem build_triangle (undirected : Bool) :
    (triangle undirected).build = .ok (triangle undirected).toGraph := by
  cases undirected <;> rfl

end EdgeList

end KCut
