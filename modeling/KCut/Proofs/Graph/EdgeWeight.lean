import KCut.Proofs.Graph.Cut

/-!
# KCut.Proofs.Graph.EdgeWeight

Weights summed over a graph, and over the edges that it was built from.

A relationship lies in the row of its node, so a sum over the rows is a sum over
the stored relationships (`Rows.sum_withKey`), and these come from the edges, one or
two from each. What is stored twice counts half. So the weight between pairs of
nodes is that of the given edges between them (`sum_link_eq_edges`), whatever the
choice of pairs: the cut, all edges that are no loops, or all edges.
-/

namespace KCut

open Finset (range)

/-- A sum of ones is their number. -/
theorem sum_map_of_eq_one {β : Type} {l : List β} {f : β → Rat} (h : ∀ x ∈ l, f x = 1) :
    (l.map f).sum = l.length := by
  have hsum := List.sum_eq_card_nsmul (l.map f) 1 (List.forall_mem_map.2 h)
  rw [hsum, List.length_map, nsmul_one]

namespace Rows

variable {β : Type} {n : Nat} {entries : List (Nat × β)}

/-- A sum over the rows of a list is a sum over the list. -/
theorem sum_withKey (hkeys : ∀ e ∈ entries, e.1 < n) (f : Nat → β → Rat) :
    ∑ v ∈ range n, ((withKey v entries).map (f v)).sum =
      (entries.map fun e => f e.1 e.2).sum := by
  induction entries with
  | nil => simp [withKey]
  | cons e rest ih =>
      have hrest := ih fun e' he' => hkeys e' (List.mem_cons_of_mem e he')
      have hrow : ∀ v, ((withKey v (e :: rest)).map (f v)).sum =
          (if e.1 = v then f v e.2 else 0) + ((withKey v rest).map (f v)).sum := by
        intro v
        by_cases hv : e.1 = v
        · simp [withKey, hv]
        · simp [withKey, hv]
      simp only [hrow, Finset.sum_add_distrib, hrest, Finset.sum_ite_eq, Finset.mem_range,
        hkeys e List.mem_cons_self, if_true, List.map_cons, List.sum_cons]

end Rows

namespace EdgeList

variable {l : EdgeList Rat} {g : Graph Rat}

/-- A sum over the stored relationships is a sum over the given edges, where both
ends of an edge count alike. -/
theorem sum_stored (hbuild : l.build = .ok g) {f : Nat → Nat → Rat → Rat}
    (hsymm : ∀ s t w, f s t w = f t s w) :
    (∑ v ∈ range g.nodeCount, ((g.outgoing.row v).map fun x => f v x.target x.weight).sum) /
        (if g.undirected then 2 else 1) =
      (l.edges.map fun e => f e.source e.target e.weightOrOne).sum := by
  obtain ⟨hnone, rfl⟩ := (build_eq_ok_iff l g).1 hbuild
  have hrows : ∑ v ∈ range l.nodeCount,
        ((l.toGraph.outgoing.row v).map fun x => f v x.target x.weight).sum =
      (l.stored.map fun e => f e.1 e.2.target e.2.weight).sum := by
    rw [← Rows.sum_withKey (fun e he => (stored_lt hnone e he).1)
      (fun v x => f v x.target x.weight)]
    refine Finset.sum_congr rfl ?_
    intro v hv
    rw [row_toGraph hnone (Finset.mem_range.1 hv)]
  have hstored : (l.stored.map fun e => f e.1 e.2.target e.2.weight).sum =
      (l.edges.map fun e => f e.source e.target e.weightOrOne).sum *
        if l.undirected then 2 else 1 := by
    rw [stored, List.map_flatMap, List.flatMap_def, List.sum_flatten, List.map_map,
      ← List.sum_map_mul_right]
    congr 1
    refine List.map_congr_left ?_
    intro e _
    cases l.undirected with
    | true => simp [Edge.stored, hsymm e.target e.source, mul_two]
    | false => simp [Edge.stored]
  show (∑ v ∈ range l.nodeCount, _) / _ = _
  rw [hrows, hstored]
  show _ * (if l.undirected then (2 : Rat) else 1) / (if l.undirected then 2 else 1) = _
  cases l.undirected with
  | true => simp
  | false => simp

/-- **The weight between pairs of nodes** is the weight of the given edges between
them, each counted once. -/
theorem sum_link_eq_edges (hbuild : l.build = .ok g) {P : Nat → Nat → Prop} [DecidableRel P]
    (hsymm : ∀ {v u : Nat}, P v u ↔ P u v) :
    (∑ v ∈ range g.nodeCount, ∑ u ∈ range g.nodeCount, if P v u then g.link v u else 0) / 2 =
      ((l.edges.filter fun e => P e.source e.target).map Edge.weightOrOne).sum := by
  rw [Graph.sum_link_eq (wellFormed_of_build hbuild) hsymm,
    sum_stored hbuild (f := fun s t w => if P s t then w else 0)]
  · induction l.edges with
    | nil => rfl
    | cons e rest ih =>
        by_cases he : P e.source e.target
        · simp [he, ih]
        · simp [he, ih]
  · intro s t w
    exact if_congr hsymm rfl rfl

/-- The weight between any two nodes is that of the edges that are no loops. -/
theorem sum_link_erase (hbuild : l.build = .ok g) :
    (∑ v ∈ range g.nodeCount, ∑ u ∈ (range g.nodeCount).erase v, g.link v u) / 2 =
      ((l.edges.filter fun e => e.source ≠ e.target).map Edge.weightOrOne).sum := by
  rw [← sum_link_eq_edges hbuild (P := fun v u => v ≠ u) ne_comm]
  simp only [← Finset.sum_filter, Finset.filter_ne]

/-- **The cut of a graph is the cut of its edges.** -/
theorem cut_eq_cutWeight (hbuild : l.build = .ok g) (a : Assignment) :
    g.cut a = l.cutWeight a.community := by
  rw [Graph.cut, sum_link_eq_edges hbuild (P := fun v u => a.community v ≠ a.community u) ne_comm,
    cutWeight, ← List.sum_eq_foldl]

/-! ### Graphs without weights -/

theorem weightOrOne_eq_one (hbuild : l.build = .ok g) (hplain : g.weighted = false) :
    ∀ e ∈ l.edges, e.weightOrOne = 1 := by
  obtain ⟨-, rfl⟩ := (build_eq_ok_iff l g).1 hbuild
  have hnone : l.edges.any (·.weight.isSome) = false := hplain
  intro e he
  have hweight : e.weight = none := by simpa using List.any_eq_false.1 hnone e he
  rw [Edge.weightOrOne, hweight]
  rfl

/-- A graph without weights stores ones. -/
theorem weight_eq_one (hbuild : l.build = .ok g) (hplain : g.weighted = false) {v : Nat}
    (hv : v < g.nodeCount) : ∀ x ∈ g.outgoing.row v, x.weight = 1 := by
  have hones := weightOrOne_eq_one hbuild hplain
  obtain ⟨hnone, rfl⟩ := (build_eq_ok_iff l g).1 hbuild
  intro x hx
  rw [row_toGraph hnone hv, Rows.withKey, List.mem_map] at hx
  obtain ⟨e, he, rfl⟩ := hx
  obtain ⟨edge, hedge, he⟩ := List.mem_flatMap.1 (List.mem_filter.1 he).1
  have hweight : e.2.weight = edge.weightOrOne := by
    rcases List.mem_cons.1 he with rfl | he
    · rfl
    · split at he
      · rw [List.mem_singleton.1 he]
      · exact absurd he List.not_mem_nil
  rw [hweight, hones edge hedge]

/-- A traversal reports the counted weights if its fallback is one. -/
theorem map_visits_one (hbuild : l.build = .ok g) {v : Nat} (hv : v < g.nodeCount) :
    (g.visits 1 v).map (List.map fun x => ⟨x.2.1, x.2.2⟩) = g.arcs v := by
  rw [Graph.visits, (wellFormed_of_build hbuild).arcs_eq hv]
  show Except.ok _ = Except.ok _
  rw [List.map_map]
  congr 1
  refine (List.map_congr_left ?_).trans (List.map_id _)
  intro x hx
  cases hweighted : g.weighted with
  | true => rfl
  | false =>
      have hone := weight_eq_one hbuild hweighted hv x hx
      show Arc.mk x.target 1 = x
      rw [← hone]

/-- With another fallback it does so once the ones are put in. -/
theorem map_visits (hbuild : l.build = .ok g) (fallback : Rat) {v : Nat} (hv : v < g.nodeCount) :
    (g.visits fallback v).map (List.map fun x => ⟨x.2.1, if g.weighted then x.2.2 else 1⟩) =
      g.arcs v := by
  rw [← map_visits_one hbuild hv, Graph.visits, Graph.visits,
    (wellFormed_of_build hbuild).arcs_eq hv]
  show Except.ok _ = Except.ok _
  cases g.weighted with
  | true => rfl
  | false => simp

/-! ### The total weight -/

/-- What is stored adds up to the given weights, doubled where both ends store them. -/
theorem sum_items (hbuild : l.build = .ok g) :
    (g.outgoing.items.toList.map (·.weight)).sum / (if g.undirected then 2 else 1) =
      l.totalWeight := by
  have hsum := sum_stored hbuild (f := fun _ _ w => w) (fun _ _ _ => rfl)
  obtain ⟨-, rfl⟩ := (build_eq_ok_iff l g).1 hbuild
  have hrows : l.toGraph.outgoing.items.toList =
      (List.range l.nodeCount).flatMap l.toGraph.outgoing.row := Rows.toList_items_ofList
  rw [hrows, List.map_flatMap, List.flatMap_def, List.sum_flatten, List.map_map, totalWeight,
    ← List.sum_eq_foldl, ← hsum, ← sum_map_range]
  rfl

/-- All items lie in a row of a node. -/
theorem weight_item_eq_one (hbuild : l.build = .ok g) (hplain : g.weighted = false) :
    ∀ x ∈ g.outgoing.items.toList, x.weight = 1 := by
  have hones := fun {v} => weight_eq_one hbuild hplain (v := v)
  obtain ⟨-, rfl⟩ := (build_eq_ok_iff l g).1 hbuild
  have hrows : l.toGraph.outgoing.items.toList =
      (List.range l.nodeCount).flatMap l.toGraph.outgoing.row := Rows.toList_items_ofList
  intro x hx
  rw [hrows] at hx
  obtain ⟨v, hv, hx⟩ := List.mem_flatMap.1 hx
  exact hones (List.mem_range.1 hv) x hx

/-- **The total weight of a graph is that of its edges.** -/
theorem totalEdgeWeight_eq (hbuild : l.build = .ok g) : g.totalEdgeWeight = l.totalWeight := by
  have hfold : ∀ (rest : List (Arc Rat)) (sum : Rat),
      rest.foldl (fun sum b => sum + b.weight) sum = sum + (rest.map (·.weight)).sum := by
    intro rest
    induction rest with
    | nil => simp
    | cons a rest ih =>
        intro sum
        rw [List.foldl_cons, ih, List.map_cons, List.sum_cons, add_assoc]
  have hhalf : ∀ stored : Rat, (if g.undirected then Weight.half stored else stored) =
      stored / if g.undirected then 2 else 1 := by
    intro stored
    cases g.undirected with
    | true => simp
    | false => simp
  rw [Graph.totalEdgeWeight, hhalf, ← sum_items hbuild]
  congr 1
  cases hweighted : g.weighted with
  | true =>
      cases g.outgoing.items.toList with
      | nil => rfl
      | cons a rest => exact hfold rest a.weight
  | false =>
      rw [sum_map_of_eq_one (weight_item_eq_one hbuild hweighted), Array.length_toList]
      rfl

end EdgeList

end KCut
