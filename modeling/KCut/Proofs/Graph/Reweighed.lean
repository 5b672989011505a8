import Mathlib.Algebra.BigOperators.Group.Multiset.Basic
import Mathlib.Data.Sym.Sym2
import KCut.Proofs.Graph.EdgeWeight

/-!
# KCut.Proofs.Graph.Reweighed

Graphs that are the same up to the weights between their nodes.

An additive function that takes the weights between the nodes of one graph to those of
another takes affinities to affinities and cuts to cuts (`Reweighed.affinity_eq`,
`Reweighed.cut_eq`). There are two such pairs of graphs. One stores the negated weights
of the other (`Negates`). Or both were built from the same edges: what lies between two
nodes can be read off the multiset of the given edges, whatever their order, their
orientation and the way they are stored (`link_eq_multigraph`).
-/

namespace KCut

open Finset (range)

theorem map_half (f : Rat →+ Rat) (x : Rat) : f (x / 2) = f x / 2 := by
  have hsum : f (x / 2) + f (x / 2) = f x := by rw [← map_add, add_halves]
  rw [eq_div_iff two_ne_zero, mul_two, hsum]

namespace Graph

/-- The two graphs link the same nodes, and `f` takes the weights between them from the
one to the other. -/
structure Reweighed (f : Rat → Rat) (g g' : Graph Rat) : Prop where
  nodeCount_eq : g'.nodeCount = g.nodeCount
  linked_iff : ∀ {u v : Nat}, u < g.nodeCount → v < g.nodeCount → (g'.Linked u v ↔ g.Linked u v)
  link_eq : ∀ {v u : Nat}, v < g.nodeCount → u < g.nodeCount → v ≠ u →
    g'.link v u = f (g.link v u)

namespace Reweighed

variable {f : Rat →+ Rat} {g g' : Graph Rat} (h : Reweighed f g g')

include h

theorem affinity_eq (a : Assignment) {v : Nat} (hv : v < g.nodeCount) (c : Nat) :
    g'.affinity a v c = f (g.affinity a v c) := by
  rw [affinity, affinity, map_sum, h.nodeCount_eq]
  refine Finset.sum_congr rfl ?_
  intro u hu
  obtain ⟨huv, hun⟩ := Finset.mem_erase.1 hu
  rw [apply_ite f, map_zero, h.link_eq hv (Finset.mem_range.1 hun) huv.symm]

theorem cut_eq (a : Assignment) : g'.cut a = f (g.cut a) := by
  rw [cut, cut, map_half, map_sum, h.nodeCount_eq]
  congr 1
  refine Finset.sum_congr rfl ?_
  intro v hv
  rw [map_sum]
  refine Finset.sum_congr rfl ?_
  intro u hu
  by_cases hcut : a.community v ≠ a.community u
  · -- Nodes in different communities are different.
    have hvu : v ≠ u := fun heq => hcut (congrArg a.community heq)
    rw [if_pos hcut, if_pos hcut, h.link_eq (Finset.mem_range.1 hv) (Finset.mem_range.1 hu) hvu]
  · rw [if_neg hcut, if_neg hcut, map_zero]

end Reweighed

/-! ### Negated weights -/

/-- `g'` is the graph `g` with every weight negated. -/
structure Negates (g g' : Graph Rat) : Prop where
  nodeCount_eq : g'.nodeCount = g.nodeCount
  undirected_eq : g'.undirected = g.undirected
  row_eq : ∀ v < g.nodeCount,
    g'.outgoing.row v = (g.outgoing.row v).map fun x => ⟨x.target, -x.weight⟩

theorem weightTo_neg (arcs : List (Arc Rat)) (u : Nat) :
    weightTo (arcs.map fun x => ⟨x.target, -x.weight⟩) u = -weightTo arcs u := by
  induction arcs with
  | nil => rw [List.map_nil, weightTo_nil, neg_zero]
  | cons x rest ih =>
      rw [List.map_cons, weightTo_cons, weightTo_cons, ih, neg_add, apply_ite Neg.neg, neg_zero]

theorem Negates.reweighed {g g' : Graph Rat} (h : g.Negates g') : Reweighed Neg.neg g g' where
  nodeCount_eq := h.nodeCount_eq
  linked_iff hu hv := by
    unfold Linked
    rw [h.row_eq _ hu, h.row_eq _ hv]
    simp
  link_eq hv hu _ := by
    rw [link, link, h.row_eq _ hv, h.row_eq _ hu, h.undirected_eq, weightTo_neg, weightTo_neg,
      neg_add, apply_ite Neg.neg, neg_zero]

end Graph

namespace EdgeList

/-- The same edges with the negated weights, all of them given. -/
def negated (l : EdgeList Rat) : EdgeList Rat :=
  { l with edges := l.edges.map fun e => { e with weight := some (-e.weightOrOne) } }

theorem build_negated {l : EdgeList Rat} {g : Graph Rat} (hbuild : l.build = .ok g) :
    l.negated.build = .ok l.negated.toGraph := by
  refine (build_eq_ok_iff _ _).2 ⟨List.findSome?_eq_none_iff.2 ?_, rfl⟩
  intro e' he'
  obtain ⟨e, he, rfl⟩ := List.mem_map.1 he'
  have hends := ends_lt_of_problem?_eq_none ((build_eq_ok_iff l g).1 hbuild).1 e he
  have hrange : ¬ (l.nodeCount ≤ e.source ∨ l.nodeCount ≤ e.target) := by omega
  exact if_neg hrange

/-- **The graph of the negated edges is the graph with negated weights.** -/
theorem negates_negated {l : EdgeList Rat} {g : Graph Rat} (hbuild : l.build = .ok g) :
    g.Negates l.negated.toGraph := by
  have hnone := ((build_eq_ok_iff _ _).1 (build_negated hbuild)).1
  obtain ⟨hnone', rfl⟩ := (build_eq_ok_iff l g).1 hbuild
  refine ⟨rfl, rfl, fun v hv => ?_⟩
  have hstored : l.negated.stored = l.stored.map fun p => (p.1, ⟨p.2.target, -p.2.weight⟩) := by
    rw [stored, stored, negated, List.flatMap_map, List.map_flatMap]
    refine List.flatMap_congr ?_
    intro e _
    cases hdir : l.undirected with
    | true => rfl
    | false => rfl
  rw [row_toGraph hnone hv, row_toGraph hnone' hv, hstored, Rows.withKey, Rows.withKey,
    List.filter_map, List.map_map, List.map_map]
  rfl

/-! ### Multigraphs -/

section

variable {α : Type} [Weight α] {l : EdgeList α} {g : Graph α} {u v : Nat}

/-- The edges between different nodes with their weights, of which a missing one counts
as one. -/
def multigraph (l : EdgeList α) : Multiset (Sym2 Nat × α) :=
  ↑((l.edges.filter fun e => e.source ≠ e.target).map fun e =>
    (s(e.source, e.target), e.weightOrOne))

theorem mem_multigraph_iff {x : Sym2 Nat × α} :
    x ∈ l.multigraph ↔ ∃ e ∈ l.edges, e.source ≠ e.target ∧
      (s(e.source, e.target), e.weightOrOne) = x := by
  simp [multigraph, and_assoc]

/-- A relationship is stored at the source of its edge, and at the target as well if the
graph is undirected. -/
theorem exists_mem_row_iff (hbuild : l.build = .ok g) (hu : u < g.nodeCount) :
    (∃ x ∈ g.outgoing.row u, x.target = v) ↔ ∃ e ∈ l.edges,
      e.source = u ∧ e.target = v ∨ g.undirected = true ∧ e.target = u ∧ e.source = v := by
  obtain ⟨hnone, rfl⟩ := (build_eq_ok_iff l g).1 hbuild
  have hdir : l.toGraph.undirected = l.undirected := rfl
  rw [row_toGraph hnone hu, hdir]
  simp only [Rows.withKey, stored, List.mem_map, List.mem_filter, List.mem_flatMap,
    decide_eq_true_eq, Edge.stored, List.mem_cons]
  constructor
  · intro hrow
    obtain ⟨_, ⟨x, ⟨⟨e, he, hx | hx⟩, rfl⟩, rfl⟩, rfl⟩ := hrow
    · subst hx
      exact ⟨e, he, Or.inl ⟨rfl, rfl⟩⟩
    · split at hx
      · next hboth =>
        obtain rfl := List.mem_singleton.1 hx
        exact ⟨e, he, Or.inr ⟨hboth, rfl, rfl⟩⟩
      · exact absurd hx List.not_mem_nil
  · intro hedge
    obtain ⟨e, he, ⟨rfl, rfl⟩ | ⟨hboth, rfl, rfl⟩⟩ := hedge
    · exact ⟨_, ⟨_, ⟨⟨e, he, Or.inl rfl⟩, rfl⟩, rfl⟩, rfl⟩
    · refine ⟨_, ⟨(e.target, ⟨e.source, e.weightOrOne⟩), ⟨⟨e, he, Or.inr ?_⟩, rfl⟩, rfl⟩, rfl⟩
      rw [if_pos hboth]
      exact List.mem_singleton_self _

/-- **Nodes are linked iff an edge joins them**, whichever way it was given. -/
theorem linked_iff_mem_multigraph (hbuild : l.build = .ok g) (hu : u < g.nodeCount)
    (hv : v < g.nodeCount) : g.Linked u v ↔ u ≠ v ∧ ∃ x ∈ l.multigraph, x.1 = s(u, v) := by
  refine and_congr_right fun huv => ?_
  rw [exists_mem_row_iff hbuild hu, exists_mem_row_iff hbuild hv]
  simp only [mem_multigraph_iff]
  constructor
  · intro hstored
    rcases hstored with ⟨e, he, h⟩ | ⟨e, he, h⟩
    all_goals
      have hends : e.source = u ∧ e.target = v ∨ e.source = v ∧ e.target = u := by omega
      exact ⟨_, ⟨e, he, by omega, rfl⟩, Sym2.eq_iff.2 hends⟩
  · intro hedge
    obtain ⟨_, ⟨e, he, hne, rfl⟩, heq⟩ := hedge
    rcases Sym2.eq_iff.1 heq with h | h
    · exact Or.inl ⟨e, he, Or.inl h⟩
    · exact Or.inr ⟨e, he, Or.inl h⟩

end

variable {l l' : EdgeList Rat} {g g' : Graph Rat} {u v : Nat}

/-- A sum over all pairs of which only one counts, in both of its orders. -/
theorem sum_pair_eq {n : Nat} (hv : v < n) (hu : u < n) (hvu : v ≠ u) (w : Nat → Nat → Rat) :
    (∑ x ∈ range n, ∑ y ∈ range n, if s(x, y) = s(v, u) then w x y else 0) = w v u + w u v := by
  have hpairs : (range n ×ˢ range n).filter (fun p => s(p.1, p.2) = s(v, u)) =
      {(v, u), (u, v)} := by
    ext p
    simp only [Finset.mem_filter, Finset.mem_product, Finset.mem_range, Sym2.eq_iff,
      Finset.mem_insert, Finset.mem_singleton, Prod.ext_iff]
    omega
  rw [← Finset.sum_product', ← Finset.sum_filter, hpairs, Finset.sum_pair]
  rw [Ne, Prod.mk.injEq]
  exact fun h => hvu h.1

/-- **The weight between two nodes is that of the edges that join them.** -/
theorem link_eq_edges (hbuild : l.build = .ok g) (hv : v < g.nodeCount) (hu : u < g.nodeCount)
    (hvu : v ≠ u) :
    g.link v u =
      ((l.edges.filter fun e => s(e.source, e.target) = s(v, u)).map Edge.weightOrOne).sum := by
  have hedges := sum_link_eq_edges hbuild (P := fun x y => s(x, y) = s(v, u))
    fun {x y} => by rw [Sym2.eq_swap]
  rw [sum_pair_eq hv hu hvu, Graph.link_comm (wellFormed_of_build hbuild) hu hv,
    add_self_div_two] at hedges
  exact hedges

/-- It can be read off the multigraph. -/
theorem link_eq_multigraph (hbuild : l.build = .ok g) (hv : v < g.nodeCount)
    (hu : u < g.nodeCount) (hvu : v ≠ u) :
    g.link v u = ((l.multigraph.filter fun x => x.1 = s(v, u)).map (·.2)).sum := by
  rw [link_eq_edges hbuild hv hu hvu, multigraph, Multiset.filter_coe, Multiset.map_coe,
    Multiset.sum_coe, List.filter_map, List.map_map, List.filter_filter]
  congr 2
  refine List.filter_congr ?_
  intro e _
  have hloop : s(e.source, e.target) = s(v, u) → e.source ≠ e.target := by
    rw [Sym2.eq_iff]
    omega
  simpa using hloop

/-- **Graphs of one multigraph are the same but for their storage.** -/
theorem reweighed_of_multigraph_eq (hbuild : l.build = .ok g) (hbuild' : l'.build = .ok g')
    (hnodes : l'.nodeCount = l.nodeCount) (hsame : l'.multigraph = l.multigraph) :
    g.Reweighed id g' := by
  have hn : g'.nodeCount = g.nodeCount := by
    rw [← ((build_eq_ok_iff l g).1 hbuild).2, ← ((build_eq_ok_iff l' g').1 hbuild').2]
    exact hnodes
  refine ⟨hn, fun hu hv => ?_, fun hv hu hvu => ?_⟩
  · rw [linked_iff_mem_multigraph hbuild hu hv,
      linked_iff_mem_multigraph hbuild' (hn ▸ hu) (hn ▸ hv), hsame]
  · rw [link_eq_multigraph hbuild hv hu hvu,
      link_eq_multigraph hbuild' (hn ▸ hv) (hn ▸ hu) hvu, hsame, id]

end EdgeList

end KCut
