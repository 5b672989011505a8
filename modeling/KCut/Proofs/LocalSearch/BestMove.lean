import Mathlib.Data.List.Basic
import KCut.LocalSearch.Swap
import KCut.Proofs.Checked
import KCut.Proofs.WeightOrder

/-!
# KCut.Proofs.LocalSearch.BestMove

The move that a node chooses, said without the scan that finds it.

`IsBestMove` says what a best move is, `bestMove?` takes the first community
that is one, and `bestChoice_community` shows that the scan over a row of
affinities finds it. This holds for every ordered weight: a gain that is no
number is comparable with nothing, so it is never chosen and never in the way.
-/

namespace KCut.LocalSearch

variable {α : Type} [Weight α]

/-- The entry of a table for a node and a community. -/
def entry (ls : LocalSearch α) (table : Array α) (v c : Nat) : α :=
  table.getD (v * ls.k + c) 0

/-- The gain of a move of `v` from `current` to `c`: more weight is left behind
than is met. -/
def moveGain (ls : LocalSearch α) (table : Array α) (v current c : Nat) : α :=
  ls.entry table v current - ls.entry table v c

/-- A move of `v` to `c` is better than none, and no move is better than it. -/
def IsBestMove (ls : LocalSearch α) (table : Array α) (v current c : Nat) : Prop :=
  c ≠ current ∧ ls.objective.better (ls.moveGain table v current c) 0 = true ∧
    ∀ d < ls.k, d ≠ current →
      ¬ ls.objective.better (ls.moveGain table v current d) (ls.moveGain table v current c) = true

instance (ls : LocalSearch α) (table : Array α) (v current c : Nat) :
    Decidable (ls.IsBestMove table v current c) :=
  inferInstanceAs (Decidable (_ ∧ _ ∧ _))

/-- The lowest community that attains the best gain, if a gain is better than
none. -/
def bestMove? (ls : LocalSearch α) (table : Array α) (v current : Nat) : Option Nat :=
  (List.range ls.k).find? fun c => ls.IsBestMove table v current c

/-! ### The scan -/

/-- What a scan knows after the communities below `m`: `best` is no move and none
of them is better, or it is the first of them with the best gain. -/
def Scanned (o : Objective) (gain : Nat → α) (current m : Nat) (best : Choice α) : Prop :=
  (best = ⟨current, 0⟩ ∧ ∀ i < m, i ≠ current → ¬ o.better (gain i) 0 = true) ∨
    (best.community < m ∧ best.community ≠ current ∧ best.gain = gain best.community ∧
      o.better best.gain 0 = true ∧
      (∀ i < m, i ≠ current → ¬ o.better (gain i) best.gain = true) ∧
      ∀ i < best.community, i ≠ current → o.better (gain i) 0 = true →
        o.better best.gain (gain i) = true)

theorem Scanned.consider [Weight.Ordered α] {o : Objective} {current m : Nat} {here : α}
    {entries : Nat → α} {best : Choice α}
    (h : Scanned o (fun c => here - entries c) current m best) :
    Scanned o (fun c => here - entries c) current (m + 1)
      (Choice.consider o current here best (entries m, m)) := by
  unfold Choice.consider
  by_cases hm : m = current
  · -- The community of the node itself is passed over.
    rw [if_pos hm]
    rcases h with ⟨hbest, hnone⟩ | ⟨hlt, hne, hgain, hpos, hmax, hfirst⟩
    · exact Or.inl ⟨hbest, fun i hi hic => hnone i (by omega) hic⟩
    · exact Or.inr ⟨by omega, hne, hgain, hpos, fun i hi hic => hmax i (by omega) hic, hfirst⟩
  rw [if_neg hm]
  dsimp only
  by_cases hbetter : o.better (here - entries m) best.gain = true
  · -- The new community is better than all before it.
    rw [if_pos hbetter]
    rcases h with ⟨rfl, hnone⟩ | ⟨hlt, hne, hgain, hpos, hmax, hfirst⟩
    · refine Or.inr ⟨by simp, hm, rfl, hbetter, fun i hi hic => ?_, fun i hi hic hi0 => ?_⟩
      · rcases Nat.lt_succ_iff_lt_or_eq.1 hi with hlt | rfl
        · exact fun hgt => hnone i hlt hic (o.better_trans hgt hbetter)
        · exact o.not_better_self _
      · exact absurd hi0 (hnone i hi hic)
    · refine Or.inr ⟨by simp, hm, rfl, o.better_trans hbetter hpos, fun i hi hic => ?_,
        fun i hi hic hi0 => ?_⟩
      · rcases Nat.lt_succ_iff_lt_or_eq.1 hi with hlt | rfl
        · exact fun hgt => hmax i hlt hic (o.better_trans hgt hbetter)
        · exact o.not_better_self _
      · exact (o.better_or_better hbetter hi0).resolve_right (hmax i hi hic)
  · rw [if_neg hbetter]
    rcases h with ⟨rfl, hnone⟩ | ⟨hlt, hne, hgain, hpos, hmax, hfirst⟩
    · refine Or.inl ⟨rfl, fun i hi hic => ?_⟩
      rcases Nat.lt_succ_iff_lt_or_eq.1 hi with hlt | rfl
      · exact hnone i hlt hic
      · exact hbetter
    · refine Or.inr ⟨by omega, hne, hgain, hpos, fun i hi hic => ?_, hfirst⟩
      rcases Nat.lt_succ_iff_lt_or_eq.1 hi with hlt' | rfl
      · exact hmax i hlt' hic
      · exact hbetter

theorem scanned_fold [Weight.Ordered α] (o : Objective) (current : Nat) (here : α)
    (entries : Nat → α) (m : Nat) :
    Scanned o (fun c => here - entries c) current m
      (((List.range m).map fun c => (entries c, c)).foldl (Choice.consider o current here)
        ⟨current, 0⟩) := by
  induction m with
  | zero => exact Or.inl ⟨rfl, fun i hi => absurd hi (Nat.not_lt_zero i)⟩
  | succ m ih =>
      rw [List.range_succ, List.map_append, List.foldl_append]
      exact ih.consider

/-! ### Rows of a table -/

section

variable {ls : LocalSearch α} {table : Array α} {n v : Nat}

omit [Weight α] in
theorem row_fits (ls : LocalSearch α) (hv : v < n) : (v + 1) * ls.k ≤ n * ls.k :=
  Nat.mul_le_mul_right ls.k hv

omit [Weight α] in
/-- A table is known by the rows of its nodes. -/
theorem ext_rows {table table' : Array α} {k : Nat} (hsize : table.size = n * k)
    (hsize' : table'.size = n * k)
    (h : ∀ v < n, ∀ c < k, table[v * k + c]? = table'[v * k + c]?) : table = table' := by
  refine Array.ext_getElem? fun i => ?_
  rcases Nat.lt_or_ge i (n * k) with hi | hi
  · -- The cell belongs to the row of a node.
    have hk : 0 < k := Nat.pos_of_lt_mul_left hi
    have hcell := h (i / k) ((Nat.div_lt_iff_lt_mul hk).2 hi) (i % k) (Nat.mod_lt i hk)
    rwa [Nat.div_add_mod'] at hcell
  · rw [Array.getElem?_eq_none (by omega), Array.getElem?_eq_none (by omega)]

omit [Weight α] in
theorem tableRow_eq (hsize : table.size = n * ls.k) (hv : v < n) :
    ls.tableRow table v = .ok (table.extract (v * ls.k) ((v + 1) * ls.k)) := by
  rw [tableRow, if_pos (hsize ▸ row_fits ls hv)]

theorem extract_getElem? (hsize : table.size = n * ls.k) (hv : v < n) {c : Nat} (hc : c < ls.k) :
    (table.extract (v * ls.k) ((v + 1) * ls.k))[c]? = some (ls.entry table v c) := by
  have hfits := row_fits ls hv
  rw [Nat.succ_mul] at hfits ⊢
  rw [Array.getElem?_extract, if_pos (by omega), entry, Array.getD_eq_getD_getElem?,
    Array.getElem?_eq_getElem (by omega), Option.getD_some]

omit [Weight α] in
theorem length_extract (hsize : table.size = n * ls.k) (hv : v < n) :
    (table.extract (v * ls.k) ((v + 1) * ls.k)).size = ls.k := by
  have hfits := row_fits ls hv
  rw [Nat.succ_mul] at hfits ⊢
  rw [Array.size_extract]
  omega

theorem zipIdx_row (hsize : table.size = n * ls.k) (hv : v < n) :
    (table.extract (v * ls.k) ((v + 1) * ls.k)).toList.zipIdx =
      (List.range ls.k).map fun c => (ls.entry table v c, c) := by
  refine List.ext_getElem? fun c => ?_
  rw [List.getElem?_zipIdx, Array.getElem?_toList, List.getElem?_map]
  rcases Nat.lt_or_ge c ls.k with hc | hc
  · rw [extract_getElem? hsize hv hc, List.getElem?_range hc]
    simp
  · rw [Array.getElem?_eq_none (by rw [length_extract hsize hv]; exact hc),
      List.getElem?_eq_none (by simpa using hc)]
    rfl

end

/-! ### The choice of a node -/

section

variable [Weight.Ordered α] {ls : LocalSearch α} {table : Array α} {n v current : Nat}

/-- **The scan finds the lowest best move**, or stays with the community of the
node if no move is better than none. -/
theorem bestChoice_community (hsize : table.size = n * ls.k) (hv : v < n) :
    (bestChoice ls.objective current (ls.entry table v current)
      (table.extract (v * ls.k) ((v + 1) * ls.k)).toList).community =
      (ls.bestMove? table v current).getD current := by
  rw [bestChoice, zipIdx_row hsize hv]
  have hscan := scanned_fold ls.objective current (ls.entry table v current)
    (ls.entry table v) ls.k
  generalize List.foldl _ _ _ = best at hscan ⊢
  rcases hscan with ⟨rfl, hnone⟩ | ⟨hlt, hne, hgain, hpos, hmax, hfirst⟩
  · have hfind : ls.bestMove? table v current = none := by
      rw [bestMove?, List.find?_eq_none]
      intro c hc hbest
      rw [decide_eq_true_eq] at hbest
      exact hnone c (List.mem_range.1 hc) hbest.1 hbest.2.1
    rw [hfind, Option.getD_none]
  · have hfind : ls.bestMove? table v current = some best.community := by
      rw [bestMove?, List.find?_range_eq_some]
      refine ⟨?_, List.mem_range.2 hlt, fun i hi => ?_⟩
      · rw [decide_eq_true_eq]
        rw [hgain] at hpos hmax
        exact ⟨hne, hpos, hmax⟩
      · -- A lower best move would have a gain as good as this one.
        rw [Bool.not_eq_true', decide_eq_false_iff_not]
        intro hlower
        obtain ⟨hic, hi0, himax⟩ := hlower
        have hgt := hfirst i hi hic hi0
        rw [hgain] at hgt
        exact himax best.community hlt hne hgt
    rw [hfind, Option.getD_some]

/-- There is a best move iff there is a move that is better than none. -/
theorem bestMove?_isSome_iff (hsize : table.size = n * ls.k) (hv : v < n) :
    (ls.bestMove? table v current).isSome = true ↔
      ∃ c < ls.k, c ≠ current ∧
        ls.objective.better (ls.moveGain table v current c) 0 = true := by
  constructor
  · intro h
    obtain ⟨c, hc⟩ := Option.isSome_iff_exists.1 h
    obtain ⟨hbest, hmem, -⟩ := List.find?_range_eq_some.1 hc
    rw [decide_eq_true_eq] at hbest
    exact ⟨c, List.mem_range.1 hmem, hbest.1, hbest.2.1⟩
  · intro hmove
    obtain ⟨c, hc, hne, hpos⟩ := hmove
    have hscan := scanned_fold ls.objective current (ls.entry table v current)
      (ls.entry table v) ls.k
    rw [← zipIdx_row hsize hv] at hscan
    have hcommunity : (bestChoice ls.objective current (ls.entry table v current)
        (table.extract (v * ls.k) ((v + 1) * ls.k)).toList).community =
        (ls.bestMove? table v current).getD current := bestChoice_community hsize hv
    rw [bestChoice] at hcommunity
    rcases hscan with ⟨-, hnone⟩ | ⟨-, hother, -⟩
    · exact absurd hpos (hnone c hc hne)
    · cases hfind : ls.bestMove? table v current with
      | some d => rfl
      | none =>
          rw [hfind, Option.getD_none] at hcommunity
          exact absurd hcommunity hother

end

theorem bestMove?_spec {ls : LocalSearch α} {table : Array α} {v current c : Nat}
    (h : ls.bestMove? table v current = some c) : c < ls.k ∧ ls.IsBestMove table v current c := by
  obtain ⟨hbest, hmem, -⟩ := List.find?_range_eq_some.1 h
  exact ⟨List.mem_range.1 hmem, of_decide_eq_true hbest⟩

end KCut.LocalSearch
