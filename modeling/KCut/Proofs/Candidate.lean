import Mathlib.Algebra.BigOperators.Group.Finset.Basic
import Mathlib.Algebra.GroupWithZero.Nat
import KCut.Candidate
import KCut.Proofs.Checked

/-!
# KCut.Proofs.Candidate

Legal assignments and tallies that agree with them.

A tally that agrees with an assignment never comes near the ends of its
counters: it is decremented for a node that it has counted, and no counter
exceeds the number of nodes. So a move of one node keeps the agreement
(`Tally.Agrees.move`), and what a tally holds is determined by the assignment
(`Tally.Agrees.unique`).
-/

namespace KCut

namespace Assignment

/-- The community of a node as a plain function. -/
def community (a : Assignment) (v : Nat) : Nat :=
  a.getD v 0

/-- An assignment of `n` nodes to the communities `0, …, k - 1`. -/
structure Legal (a : Assignment) (n k : Nat) : Prop where
  size_eq : a.size = n
  community_lt : ∀ {v : Nat}, v < n → a.community v < k

/-- Each community has at least its minimum of nodes. -/
def Fills (a : Assignment) (minSizes : Array Nat) (k : Nat) : Prop :=
  ∀ c < k, minSizes.getD c 0 ≤ a.count c

instance (a : Assignment) (n k : Nat) : Decidable (a.Legal n k) :=
  decidable_of_iff (a.size = n ∧ ∀ v < n, a.community v < k)
    ⟨fun h => ⟨h.1, fun hv => h.2 _ hv⟩, fun h => ⟨h.size_eq, fun _ hv => h.community_lt hv⟩⟩

theorem community_eq_getElem {a : Assignment} {v : Nat} (hv : v < a.size) :
    a.community v = a[v] := by
  simp [community, hv]

theorem get_eq {a : Assignment} {v : Nat} (hv : v < a.size) : a.get v = .ok (a.community v) := by
  rw [get, Buffer.read_eq_ok hv, community_eq_getElem hv]

theorem set_eq {a : Assignment} {v : Nat} (hv : v < a.size) (c : Nat) :
    a.set v c = .ok (a.setIfInBounds v c) :=
  Buffer.write_eq_ok hv c

theorem community_setIfInBounds {a : Assignment} {v : Nat} (hv : v < a.size) (c u : Nat) :
    community (a.setIfInBounds v c) u = if u = v then c else a.community u := by
  rw [community, community, Array.getD_eq_getD_getElem?, Array.getD_eq_getD_getElem?,
    Array.getElem?_setIfInBounds]
  by_cases huv : u = v
  · rw [if_pos huv.symm, if_pos hv, if_pos huv, Option.getD_some]
  · rw [if_neg (Ne.symm huv), if_neg huv]

theorem ext_community {a b : Assignment} (hsize : a.size = b.size)
    (h : ∀ v < a.size, a.community v = b.community v) : a = b := by
  refine Array.ext hsize fun v hv hv' => ?_
  rw [← community_eq_getElem hv, ← community_eq_getElem hv']
  exact h v hv

theorem Legal.setIfInBounds {a : Assignment} {n k v c : Nat} (h : a.Legal n k) (hv : v < n)
    (hc : c < k) : Legal (a.setIfInBounds v c) n k := by
  refine ⟨by rw [Array.size_setIfInBounds, h.size_eq], fun {u} hu => ?_⟩
  rw [community_setIfInBounds (h.size_eq ▸ hv)]
  split
  · exact hc
  · exact h.community_lt hu

theorem size_zero (n : Nat) : (zero n).size = n := by
  simp [zero]

end Assignment

namespace Tally

/-- The tally holds the number of nodes in each of the communities
`0, …, k - 1`. -/
structure Agrees (t : Tally) (a : Assignment) (k : Nat) : Prop where
  size_eq : t.size = k
  getElem?_eq : ∀ {c : Nat}, c < k → t[c]? = some (a.count c)

instance (t : Tally) (a : Assignment) (k : Nat) : Decidable (t.Agrees a k) :=
  decidable_of_iff (t.size = k ∧ ∀ c < k, t[c]? = some (a.count c))
    ⟨fun h => ⟨h.1, fun hc => h.2 _ hc⟩, fun h => ⟨h.size_eq, fun _ hc => h.getElem?_eq hc⟩⟩

namespace Agrees

variable {t t' : Tally} {a : Assignment} {k : Nat}

theorem get_eq (h : t.Agrees a k) {c : Nat} (hc : c < k) : t.get c = .ok (a.count c) := by
  have hget := h.getElem?_eq hc
  rw [get, Buffer.read, hget]

theorem getD_eq (h : t.Agrees a k) {c : Nat} (hc : c < k) : t.getD c 0 = a.count c := by
  rw [Array.getD_eq_getD_getElem?, h.getElem?_eq hc, Option.getD_some]

/-- There is only one tally of an assignment. -/
theorem unique (h : t.Agrees a k) (h' : t'.Agrees a k) : t = t' := by
  refine Array.ext_getElem? fun c => ?_
  rcases Nat.lt_or_ge c k with hc | hc
  · rw [h.getElem?_eq hc, h'.getElem?_eq hc]
  · rw [Array.getElem?_eq_none (by rw [h.size_eq]; exact hc),
      Array.getElem?_eq_none (by rw [h'.size_eq]; exact hc)]

end Agrees

/-- A node is counted in its community. -/
theorem count_community_pos {a : Assignment} {v : Nat} (hv : v < a.size) :
    0 < a.count (a.community v) := by
  rw [Array.count_pos_iff, Assignment.community_eq_getElem hv]
  exact Array.getElem_mem hv

/-- What a move of one node does to the sizes of the communities. -/
theorem count_setIfInBounds {a : Assignment} {v : Nat} (hv : v < a.size) (d c : Nat) :
    Array.count c (a.setIfInBounds v d) =
      a.count c - (if a.community v = c then 1 else 0) + if d = c then 1 else 0 := by
  rw [Array.setIfInBounds, dif_pos hv, Array.count_set, Assignment.community_eq_getElem hv]
  simp

/-- A community that a node is not in has room for it. -/
theorem count_lt_size_of_ne {a : Assignment} {v d : Nat} (hv : v < a.size)
    (hd : a.community v ≠ d) : a.count d < a.size := by
  have hafter : Array.count d (a.setIfInBounds v d) ≤ (a.setIfInBounds v d).size :=
    Array.count_le_size
  rw [count_setIfInBounds hv, if_neg hd, if_pos rfl, Array.size_setIfInBounds] at hafter
  omega

theorem pred_of_pos {n : Nat} (h : 0 < n) : pred n = n - 1 :=
  if_neg (by omega)

theorem succ_of_lt {n : Nat} (h : n + 1 < modulus) : succ n = n + 1 :=
  if_neg (by omega)

/-- **A move keeps the agreement**, and no counter runs over its ends. -/
theorem Agrees.move {t : Tally} {a : Assignment} {k v d : Nat} (h : t.Agrees a k)
    (hv : v < a.size) (hc : a.community v < k) (hd : d < k) (hword : a.size < modulus) :
    ∃ t', t.move (a.community v) d = .ok t' ∧ t'.Agrees (a.setIfInBounds v d) k := by
  have hpos := count_community_pos hv
  have hmove : t.move (a.community v) d = .ok ((t.modify (a.community v) pred).modify d succ) := by
    rw [Tally.move, decrement, Buffer.update_eq_ok (by rw [h.size_eq]; exact hc), ok_bind,
      increment, Buffer.update_eq_ok (by rw [Array.size_modify, h.size_eq]; exact hd)]
  refine ⟨_, hmove, by rw [Array.size_modify, Array.size_modify, h.size_eq], fun {c} hck => ?_⟩
  rw [Array.getElem?_modify, Array.getElem?_modify, h.getElem?_eq hck, count_setIfInBounds hv]
  have hle : a.count c ≤ a.size := Array.count_le_size
  by_cases hvc : a.community v = c
  · rw [if_pos hvc, if_pos hvc, Option.map_some, pred_of_pos (hvc ▸ hpos)]
    by_cases hdc : d = c
    · rw [if_pos hdc, if_pos hdc, Option.map_some, succ_of_lt (by omega)]
    · rw [if_neg hdc, if_neg hdc, Nat.add_zero]
  · rw [if_neg hvc, if_neg hvc, Nat.sub_zero]
    by_cases hdc : d = c
    · have hroom := count_lt_size_of_ne hv hvc
      rw [if_pos hdc, if_pos hdc, Option.map_some, succ_of_lt (by omega)]
    · rw [if_neg hdc, if_neg hdc, Nat.add_zero]

end Tally

/-! ### Tallies of lists of communities -/

namespace Tally

/-- The tally holds how often each of the communities `0, …, k - 1` occurs in a
list. -/
structure Holds (t : Tally) (colors : List Nat) (k : Nat) : Prop where
  size_eq : t.size = k
  getElem?_eq : ∀ {c : Nat}, c < k → t[c]? = some (colors.count c)

namespace Holds

variable {t : Tally} {colors : List Nat} {k : Nat}

theorem agrees {a : Assignment} (h : t.Holds a.toList k) : t.Agrees a k :=
  ⟨h.size_eq, fun hc => by rw [h.getElem?_eq hc, Array.count_toList]⟩

theorem of_perm {colors' : List Nat} (h : t.Holds colors k) (hperm : colors.Perm colors') :
    t.Holds colors' k :=
  ⟨h.size_eq, fun hc => by rw [h.getElem?_eq hc, hperm.count_eq]⟩

theorem zero (k : Nat) : (Tally.zero k).Holds [] k :=
  ⟨size_zero k, fun hc => by rw [Tally.zero, Array.getElem?_replicate, if_pos hc, List.count_nil]⟩

/-- The counters with their communities. -/
theorem zipIdx_eq (h : t.Holds colors k) :
    t.toList.zipIdx = (List.range k).map fun c => (colors.count c, c) := by
  refine List.ext_getElem? fun c => ?_
  rw [List.getElem?_zipIdx, Array.getElem?_toList, List.getElem?_map, Nat.zero_add]
  rcases Nat.lt_or_ge c k with hc | hc
  · rw [h.getElem?_eq hc, List.getElem?_range hc]
    rfl
  · rw [Array.getElem?_eq_none (h.size_eq.symm ▸ hc), List.getElem?_eq_none (by simpa using hc)]
    rfl

/-- Counting `delta` more nodes of one community. -/
theorem add (h : t.Holds colors k) {c delta : Nat} (hc : c < k)
    (hword : colors.length + delta < modulus) :
    ∃ t', t.add c delta = .ok t' ∧ t'.Holds (colors ++ List.replicate delta c) k := by
  refine ⟨_, Buffer.update_eq_ok (h.size_eq ▸ hc) _, by rw [Array.size_modify, h.size_eq], ?_⟩
  intro d hd
  have hle : colors.count d ≤ colors.length := List.count_le_length
  rw [Array.getElem?_modify, h.getElem?_eq hd, List.count_append, List.count_replicate]
  by_cases hcd : c = d
  · rw [if_pos hcd, Option.map_some, Nat.mod_eq_of_lt (by omega), if_pos (by simp [hcd])]
  · rw [if_neg hcd, if_neg (by simp [hcd]), Nat.add_zero]

/-- Counting one more node in plain counters. -/
theorem modify (h : t.Holds colors k) {c : Nat} :
    Holds (t.modify c (· + 1)) (colors ++ [c]) k := by
  refine ⟨by rw [Array.size_modify, h.size_eq], fun {d} hd => ?_⟩
  rw [Array.getElem?_modify, h.getElem?_eq hd, List.count_append, List.count_singleton]
  by_cases hcd : c = d
  · rw [if_pos hcd, Option.map_some, if_pos (by simp [hcd])]
  · rw [if_neg hcd, if_neg (by simp [hcd]), Nat.add_zero]

end Holds

end Tally

namespace Assignment

/-- An assignment as the list of its communities. -/
theorem map_community_range {a : Assignment} {n : Nat} (hsize : a.size = n) :
    (List.range n).map a.community = a.toList := by
  refine List.ext_getElem (by simp [hsize]) fun v hv hv' => ?_
  rw [List.getElem_map, List.getElem_range, Array.getElem_toList,
    community_eq_getElem (by simpa using hv')]

end Assignment

/-! ### Sizes of communities -/

namespace Assignment

/-- The communities of an assignment are those of its nodes. -/
theorem Legal.mem_lt {a : Assignment} {n k c : Nat} (h : a.Legal n k) (hc : c ∈ a.toList) :
    c < k := by
  rw [← map_community_range h.size_eq] at hc
  obtain ⟨v, hv, rfl⟩ := List.mem_map.1 hc
  exact h.community_lt (List.mem_range.1 hv)

/-- **The sizes of the communities** can be counted, and all nodes are in one. -/
theorem communitySizes_eq {a : Assignment} {n k : Nat} (h : a.Legal n k) :
    ∃ sizes, a.communitySizes k = .ok sizes ∧ Tally.Agrees sizes a k ∧ sizes.toList.sum = n := by
  obtain ⟨sizes, hfold, hsizes⟩ :
      ∃ sizes, a.communitySizes k = .ok sizes ∧ Tally.Holds sizes a.toList k := by
    refine foldlM_yields (fun done sizes => Tally.Holds sizes done k) (Tally.Holds.zero k) ?_
    intro done c rest sizes hl hdone
    have hc : c < k := h.mem_lt (hl ▸ List.mem_append_right done List.mem_cons_self)
    exact ⟨_, Buffer.update_eq_ok (hdone.size_eq ▸ hc) _, hdone.modify⟩
  refine ⟨sizes, hfold, hsizes.agrees, ?_⟩
  have hcells : sizes.toList = (List.range k).map fun c => a.toList.count c := by
    rw [← List.zipIdx_map_fst 0 sizes.toList, hsizes.zipIdx_eq, List.map_map]
    rfl
  have hall : ∀ c ∈ (a.toList : Multiset Nat), c ∈ Finset.range k := fun c hc =>
    Finset.mem_range.2 (h.mem_lt (Multiset.mem_coe.1 hc))
  calc sizes.toList.sum = ∑ c ∈ Finset.range k, (a.toList : Multiset Nat).count c := by
        simp only [hcells, Multiset.coe_count]
        rfl
    _ = n := by
        rw [Multiset.sum_count_eq_card hall, Multiset.coe_card, Array.length_toList, h.size_eq]

end Assignment

/-- A candidate whose assignment is legal and counted by its tally. -/
structure Candidate.Sound {α : Type} (c : Candidate α) (n k : Nat) : Prop where
  legal : c.assignment.Legal n k
  agrees : c.tally.Agrees c.assignment k

/-! ### Minimums -/

namespace Assignment

/-- No community has fewer nodes in `b` than its minimum, unless it had fewer in `a`; then it has
lost none. -/
def Spares (minSizes : Array Nat) (k : Nat) (a b : Assignment) : Prop :=
  ∀ c < k, min (a.count c) (minSizes.getD c 0) ≤ b.count c

namespace Spares

variable {a a' b : Assignment} {minSizes : Array Nat} {k : Nat}

theorem refl (a : Assignment) : Spares minSizes k a a :=
  fun _ _ => Nat.min_le_left _ _

theorem trans (h : Spares minSizes k a a') (h' : Spares minSizes k a' b) :
    Spares minSizes k a b := by
  intro c hc
  have hfirst := h c hc
  have hsecond := h' c hc
  omega

/-- A node may leave a community that has more nodes than its minimum. -/
theorem move {v d : Nat} (hv : v < a.size)
    (hleast : minSizes.getD (a.community v) 0 < a.count (a.community v)) :
    Spares minSizes k a (a.setIfInBounds v d) := by
  intro c _
  rw [Tally.count_setIfInBounds hv]
  by_cases hvc : a.community v = c
  · rw [if_pos hvc]
    rw [hvc] at hleast
    omega
  · rw [if_neg hvc]
    omega

/-- Minimums that were kept still are. -/
theorem fills (h : Spares minSizes k a b) (ha : a.Fills minSizes k) : b.Fills minSizes k := by
  intro c hc
  have hstart := ha c hc
  have hend := h c hc
  omega

end Spares

end Assignment

/-- What is known of a candidate that has come from another one by moves that respect the
minimums: its tally holds the sizes of its communities, and none of them is below its minimum
unless it was at the start; then it has lost nothing. -/
theorem Candidate.Sound.sizes_of_spares {α : Type} {c c' : Candidate α} {n k : Nat}
    (hc : c.Sound n k) (hc' : c'.Sound n k) {minSizes : Array Nat}
    (hspares : Assignment.Spares minSizes k c.assignment c'.assignment) :
    ∃ sizes, c'.assignment.size = n ∧ (∀ community ∈ c'.assignment, community < k) ∧
      c'.assignment.communitySizes k = .ok sizes ∧ c'.tally = sizes ∧ sizes.toList.sum = n ∧
      ∀ i < k, min (c.tally.getD i 0) (minSizes.getD i 0) ≤ sizes.getD i 0 := by
  obtain ⟨sizes, hsizes, hagrees, hsum⟩ := Assignment.communitySizes_eq hc'.legal
  refine ⟨sizes, hc'.legal.size_eq, ?_, hsizes, hc'.agrees.unique hagrees, hsum, ?_⟩
  · intro community hmem
    exact hc'.legal.mem_lt (Array.mem_toList_iff.2 hmem)
  · intro i hi
    rw [hc.agrees.getD_eq hi, hagrees.getD_eq hi]
    exact hspares i hi

end KCut
