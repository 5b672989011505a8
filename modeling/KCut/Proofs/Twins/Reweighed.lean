import KCut.Proofs.Graph.Reweighed
import KCut.Proofs.LocalSearch.Affinity
import KCut.Proofs.LocalSearch.Cost
import KCut.Proofs.Twins.Solver

/-!
# KCut.Proofs.Twins.Reweighed

Runs on graphs that are the same up to the weights between their nodes, in exact
arithmetic.

A run sees of its graph only which nodes are linked, the affinities and the cuts. So the
problems of two such graphs are twins, as long as their objectives compare the weights
alike (`Twins.of_reweighed`). Hence a run depends on nothing but the multigraph of the
given edges (`compute_of_multigraph_eq`), and a search for light cuts mirrors the search
for heavy cuts under the negated weights (`compute_of_negates`).
-/

namespace KCut

/-- Negation turns the comparisons round. -/
theorem Objective.carries_neg : Objective.Carries (Neg.neg : Rat → Rat) .maximize .minimize where
  map_zero := neg_zero
  map_sub x y := neg_sub' x y
  better_eq x y := by simp
  beatsWorst_eq _ := rfl

section

variable {f : Rat →+ Rat}

/-- **Searches on reweighed graphs are twins.** -/
theorem LocalSearch.Twins.of_reweighed {ls ls' : LocalSearch Rat}
    (h : ls.graph.Reweighed f ls'.graph) (ready : ls.Ready) (ready' : ls'.Ready)
    (hk : ls'.k = ls.k) (hminSizes : ls'.minSizes = ls.minSizes)
    (carries : Objective.Carries f ls.objective ls'.objective) : Twins f ls ls' where
  ready := ready
  ready' := ready'
  nodeCount_eq := h.nodeCount_eq
  k_eq := hk
  minSizes_eq := hminSizes
  carries := carries
  linked_iff := h.linked_iff
  row_alike {a v} ha hv := by
    have hn := h.nodeCount_eq
    obtain ⟨row, hrow, hsize, hentries⟩ := affinityRow_eq ready ha hv
    obtain ⟨row', hrow', hsize', hentries'⟩ :=
      affinityRow_eq ready' (by rwa [hn, hk]) (hn ▸ hv)
    rw [hrow, hrow']
    refine .ok (Array.ext_getElem? fun c => ?_)
    rw [Array.getElem?_map]
    rcases Nat.lt_or_ge c ls.k with hc | hc
    · rw [hentries c hc, hentries' c (hk ▸ hc), h.affinity_eq a hv c]
      rfl
    · rw [Array.getElem?_eq_none (by omega), Array.getElem?_eq_none (by omega)]
      rfl
  cost_alike {a} ha := by
    have hsize : a.size = ls'.graph.nodeCount := ha.size_eq.trans h.nodeCount_eq.symm
    rw [costIn_eq ready.graph ha.size_eq (ready.perm_nodes (.refl _)),
      costIn_eq ready'.graph hsize (ready'.perm_nodes (.refl _))]
    exact .ok (h.cut_eq a)

namespace Solver

theorem Twins.of_reweighed {s s' : Solver Rat} (h : s.graph.Reweighed f s'.graph) (hs : s.Suits)
    (hs' : s'.Suits) (hconstruction : s'.construction = s.construction)
    (hconfig : s'.config = { s.config with minimize := s'.config.minimize })
    (htermination : s'.termination = s.termination)
    (carries : Objective.Carries f s.config.objective s'.config.objective) : Twins f s s' where
  suits := hs
  searches := by
    have hk : s'.config.k = s.config.k := by rw [hconfig]
    have hminSizes : s'.config.resolvedMinSizes = s.config.resolvedMinSizes := by
      rw [hconfig]
      rfl
    refine ⟨.of_reweighed h hs.ready hs'.ready hk (congrArg List.toArray hminSizes) carries,
      hs.searches_match, hs'.searches_match, ?_, ?_⟩
    · show s'.config.vnsMaxNeighborhoodOrder = s.config.vnsMaxNeighborhoodOrder
      rw [hconfig]
    · show s'.config.maxPerturbationRetries = s.config.maxPerturbationRetries
      rw [hconfig]
  construction_eq := by
    obtain ⟨minBatch, hrandom⟩ := hs.random
    exact ⟨minBatch, hrandom, hconstruction.trans hrandom⟩
  config_eq := hconfig
  termination_eq := htermination

/-- Twin runs end in the same overflow or have reports that are the same but for their
costs. -/
theorem Twins.compute_gives {f : Rat → Rat} {s s' : Solver Rat} (h : Twins f s s')
    (hs' : s'.Suits) (seed : UInt64) :
    (∃ fault, s.compute seed = .error fault ∧ s'.compute seed = .error fault ∧
      NeighborhoodSearch.Overflow s.config.vnsMaxNeighborhoodOrder s.config.k fault) ∨
    ∃ r r', s.compute seed = .ok r ∧ s'.compute seed = .ok r' ∧
      r'.answer = r.answer.mapCost f ∧
      r'.journal.messages = r.journal.messages.map (ScoredTrial.mapCost f) := by
  have halike := h.compute_twins hs' seed
  rcases compute_concluded h.suits seed with
    ⟨fault, hcompute, hoverflow⟩ | ⟨r, -, -, hcompute, -⟩
  · rw [hcompute] at halike
    exact Or.inl ⟨fault, hcompute, halike.eq_error, hoverflow⟩
  · rw [hcompute] at halike
    obtain ⟨r', hcompute', himage⟩ := halike.exists_of_ok
    exact Or.inr ⟨r, r', hcompute, hcompute', himage.answer_eq, himage.messages_eq⟩

/-- **A run on a reweighed graph** ends in the same overflow or gives the same answer and
the same messages with changed costs. -/
theorem compute_reweighed {l l' : EdgeList Rat} {g g' : Graph Rat} {c c' : Config}
    (hbuild : l.build = .ok g) (hbuild' : l'.build = .ok g') (h : g.Reweighed f g')
    (hword : g.nodeCount < Tally.modulus) (haccepted : c.problemFor? g.nodeCount = .ok none)
    (hk : c.k < 2 ^ 32) (hconfig : c' = { c with minimize := c'.minimize })
    (carries : Objective.Carries f c.objective c'.objective) (minBatch : Nat)
    (termination : Option Termination) (listeners : Nat) (seed : UInt64) :
    let s : Solver Rat := ⟨g, c, .random minBatch, termination, listeners⟩
    let s' : Solver Rat := ⟨g', c', .random minBatch, termination, listeners⟩
    (1 < c.vnsMaxNeighborhoodOrder ∧ 2 ^ 31 < c.k ∧ ∃ sum,
      s.compute seed = .error (.overflow sum) ∧ s'.compute seed = .error (.overflow sum)) ∨
    ∃ r r', s.compute seed = .ok r ∧ s'.compute seed = .ok r' ∧
      r'.answer = r.answer.mapCost f ∧
      r'.journal.messages = r.journal.messages.map (ScoredTrial.mapCost f) := by
  intro s s'
  have hn : g'.nodeCount = g.nodeCount := h.nodeCount_eq
  have hk' : c'.k = c.k := by rw [hconfig]
  have haccepted' : c'.problemFor? g'.nodeCount = .ok none := by
    rw [hn, hconfig]
    exact haccepted
  rcases Nat.eq_zero_or_pos g.nodeCount with hzero | hpos
  · obtain ⟨r, hr, hanswer, hmessages⟩ := compute_of_no_nodes (s := s) hzero seed
    obtain ⟨r', hr', hanswer', hmessages'⟩ :=
      compute_of_no_nodes (s := s') (hn.trans hzero) seed
    refine Or.inr ⟨r, r', hr, hr', ?_, ?_⟩
    · rw [hanswer, hanswer', Answer.mapCost, Score.map_of, map_zero]
    · rw [hmessages, hmessages']
      rfl
  · have hs : s.Suits :=
      suits_of_build hbuild hpos hword haccepted hk minBatch termination listeners
    have hs' : s'.Suits := suits_of_build hbuild' (hn ▸ hpos) (hn ▸ hword) haccepted' (hk' ▸ hk)
      minBatch termination listeners
    have htwins : Twins f s s' := .of_reweighed h hs hs' rfl hconfig rfl carries
    rcases htwins.compute_gives hs' seed with
      ⟨fault, hcompute, hcompute', horder, hwide, sum, rfl⟩ | hreports
    · exact Or.inl ⟨horder, hwide, sum, hcompute, hcompute'⟩
    · exact Or.inr hreports

end Solver

end

namespace Solver

/-! ### Runs on one multigraph -/

/-- **A run depends on the multigraph of its graph alone.** Edge lists over the same nodes
that become the same multiset of weighted pairs, once loops are dropped and missing
weights are read as one, lead to the same answer and the same messages; or both runs end
in the same overflow of two community ids. -/
theorem compute_of_multigraph_eq {l l' : EdgeList Rat} {g g' : Graph Rat} {c : Config}
    (hbuild : l.build = .ok g) (hbuild' : l'.build = .ok g') (hnodes : l'.nodeCount = l.nodeCount)
    (hsame : l'.multigraph = l.multigraph) (hword : g.nodeCount < Tally.modulus)
    (haccepted : c.problemFor? g.nodeCount = .ok none) (hk : c.k < 2 ^ 32) (minBatch : Nat)
    (termination : Option Termination) (listeners : Nat) (seed : UInt64) :
    let s : Solver Rat := ⟨g, c, .random minBatch, termination, listeners⟩
    let s' : Solver Rat := ⟨g', c, .random minBatch, termination, listeners⟩
    (1 < c.vnsMaxNeighborhoodOrder ∧ 2 ^ 31 < c.k ∧ ∃ sum,
      s.compute seed = .error (.overflow sum) ∧ s'.compute seed = .error (.overflow sum)) ∨
    ∃ r r', s.compute seed = .ok r ∧ s'.compute seed = .ok r' ∧
      r'.answer = r.answer ∧ r'.journal.messages = r.journal.messages := by
  intro s s'
  have hreweighed : g.Reweighed (AddMonoidHom.id Rat) g' :=
    EdgeList.reweighed_of_multigraph_eq hbuild hbuild' hnodes hsame
  refine (compute_reweighed hbuild hbuild' hreweighed hword haccepted hk rfl (.id _) minBatch
    termination listeners seed).imp_right ?_
  intro hreports
  obtain ⟨r, r', hr, hr', hanswer, hmessages⟩ := hreports
  refine ⟨r, r', hr, hr', ?_, ?_⟩
  · rw [hanswer, AddMonoidHom.coe_id, Answer.mapCost_id]
  · rw [hmessages, AddMonoidHom.coe_id, funext ScoredTrial.mapCost_id, List.map_id']

/-- The triangle as an undirected graph, and as a directed graph that was given its edges
in another order, some of them turned round, without the loop and with all weights. -/
theorem multigraph_triangle :
    let l : EdgeList Rat :=
      ⟨3, false, [⟨0, 2, some 1⟩, ⟨1, 0, some 1⟩, ⟨0, 1, some 2⟩, ⟨2, 1, some (-1)⟩]⟩
    let c : Config := { Config.default with iterations := 3, vnsMaxNeighborhoodOrder := 2 }
    let s : Solver Rat := ⟨(EdgeList.triangle true).toGraph, c, .random 1, none, 0⟩
    let s' : Solver Rat := ⟨l.toGraph, c, .random 1, none, 0⟩
    ∃ r r', s.compute 7 = .ok r ∧ s'.compute 7 = .ok r' ∧
      r'.answer = r.answer ∧ r'.journal.messages = r.journal.messages := by
  intro l c s s'
  have hbuild : l.build = .ok l.toGraph := rfl
  have hsame : l.multigraph = (EdgeList.triangle true).multigraph := by decide +kernel
  rcases compute_of_multigraph_eq (EdgeList.build_triangle true) hbuild rfl hsame (c := c)
    (by decide) (by decide) (by decide) 1 none 0 7 with ⟨-, hwide, -⟩ | hreports
  · exact absurd hwide (by decide)
  · exact hreports

/-! ### Mirrored runs -/

/-- **Minimizing mirrors maximizing.** On the graph with every weight negated, a run for
light cuts has the assignment, the counters and the messages of the run for heavy cuts on
the graph itself, with every cost negated; or both runs end in the same overflow of two
community ids. The numbers that stand for an unscored cost are negatives of each other
too. -/
theorem compute_of_negates {l l' : EdgeList Rat} {g g' : Graph Rat} {c : Config}
    (hbuild : l.build = .ok g) (hbuild' : l'.build = .ok g') (hnegates : g.Negates g')
    (hword : g.nodeCount < Tally.modulus) (haccepted : c.problemFor? g.nodeCount = .ok none)
    (hk : c.k < 2 ^ 32) (minBatch : Nat) (termination : Option Termination) (listeners : Nat)
    (seed : UInt64) :
    let heavy : Solver Rat :=
      ⟨g, { c with minimize := false }, .random minBatch, termination, listeners⟩
    let light : Solver Rat :=
      ⟨g', { c with minimize := true }, .random minBatch, termination, listeners⟩
    Objective.minimize.worstCost = -Objective.maximize.worstCost ∧
    ((1 < c.vnsMaxNeighborhoodOrder ∧ 2 ^ 31 < c.k ∧ ∃ sum,
      heavy.compute seed = .error (.overflow sum) ∧
        light.compute seed = .error (.overflow sum)) ∨
    ∃ r r', heavy.compute seed = .ok r ∧ light.compute seed = .ok r' ∧
      r'.answer = r.answer.mapCost Neg.neg ∧
      r'.journal.messages = r.journal.messages.map (ScoredTrial.mapCost Neg.neg)) := by
  intro heavy light
  have hreweighed : g.Reweighed (negAddMonoidHom : Rat →+ Rat) g' := hnegates.reweighed
  have hconfig : light.config = { heavy.config with minimize := light.config.minimize } := rfl
  have hheavy : heavy.config.problemFor? g.nodeCount = .ok none := haccepted
  refine ⟨rfl, ?_⟩
  exact compute_reweighed hbuild hbuild' hreweighed hword hheavy hk hconfig
    Objective.carries_neg minBatch termination listeners seed

/-- The undirected triangle and its mirror image. -/
theorem mirrored_triangle :
    let l := EdgeList.triangle true
    let c : Config := { Config.default with iterations := 3, vnsMaxNeighborhoodOrder := 2 }
    let heavy : Solver Rat := ⟨l.toGraph, { c with minimize := false }, .random 1, none, 0⟩
    let light : Solver Rat := ⟨l.negated.toGraph, { c with minimize := true }, .random 1, none, 0⟩
    ∃ r r', heavy.compute 7 = .ok r ∧ light.compute 7 = .ok r' ∧
      r'.answer = r.answer.mapCost Neg.neg ∧
      r'.journal.messages = r.journal.messages.map (ScoredTrial.mapCost Neg.neg) := by
  intro l c heavy light
  have hbuild := EdgeList.build_triangle true
  obtain ⟨-, ⟨-, hwide, -⟩ | hreports⟩ := compute_of_negates hbuild
    (EdgeList.build_negated hbuild) (EdgeList.negates_negated hbuild) (c := c) (by decide)
    (by decide) (by decide) 1 none 0 7
  · exact absurd hwide (by decide)
  · exact hreports

end Solver

end KCut
