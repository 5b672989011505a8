import Mathlib.Algebra.BigOperators.Group.List.Basic
import Mathlib.Algebra.GroupWithZero.Nat
import Mathlib.Data.List.Induction
import KCut.Graph.Rows
import KCut.Proofs.Checked

/-!
# KCut.Proofs.Graph.Rows

Compressed rows hold what they were built from: row `v` of `Rows.ofList` is the
list of the items with key `v`, in their order.

The counting sort is followed part by part. Row `v` starts behind the keys below
`v` (`rowStart`), the next item of a row goes behind those of the row that were
placed before it (`slots_concat`), and no later item is written over it
(`placed_getElem?`). The rows lie within the items (`Fits`), which is what makes
all reading of them safe.
-/

namespace KCut.Rows

variable {β : Type}

/-! ### Reading rows -/

/-- Rows lie behind one another, all of them within the items. -/
def Fits (r : Rows β) : Prop :=
  ∀ v, v + 1 < r.offsets.size →
    r.offsets.getD v 0 ≤ r.offsets.getD (v + 1) 0 ∧ r.offsets.getD (v + 1) 0 ≤ r.items.size

namespace Fits

variable {r : Rows β} {v : Nat}

theorem row?_eq_ok (hr : r.Fits) (h : v + 1 < r.offsets.size) : r.row? v = .ok (r.row v) := by
  obtain ⟨hle, hsize⟩ := hr v h
  rw [row?, Buffer.read_eq_getD (by omega) 0, ok_bind, Buffer.read_eq_getD h 0, ok_bind,
    Buffer.slice_eq_ok hle hsize]
  rfl

theorem rowSize?_eq_ok (hr : r.Fits) (h : v + 1 < r.offsets.size) :
    r.rowSize? v = .ok (r.rowSize v) := by
  rw [rowSize?, Buffer.read_eq_getD h 0, ok_bind, Buffer.read_eq_getD (by omega) 0, ok_bind,
    Checked.sub_eq_ok (hr v h).1]
  rfl

end Fits

/-! ### Where rows start -/

/-- The number of keys below `v`: where row `v` starts. -/
def rowStart (keys : List Nat) (v : Nat) : Nat :=
  keys.countP (· < v)

theorem rowStart_zero (keys : List Nat) : rowStart keys 0 = 0 := by
  simp [rowStart]

theorem rowStart_succ (keys : List Nat) (v : Nat) :
    rowStart keys (v + 1) = rowStart keys v + keys.count v := by
  induction keys with
  | nil => rfl
  | cons k keys ih =>
      simp only [rowStart, List.countP_cons, List.count_cons, decide_eq_true_eq, beq_iff_eq] at ih ⊢
      grind

theorem rowStart_mono (keys : List Nat) {v w : Nat} (h : v ≤ w) :
    rowStart keys v ≤ rowStart keys w :=
  List.countP_mono_left fun k _ hk => by
    simp only [decide_eq_true_eq] at hk ⊢
    omega

/-- Rows do not overlap. -/
theorem rowStart_add_count_le (keys : List Nat) {v w : Nat} (h : v < w) :
    rowStart keys v + keys.count v ≤ rowStart keys w := by
  rw [← rowStart_succ]
  exact rowStart_mono keys h

/-! ### Counting the keys -/

theorem countKeys_fold (keys : List Nat) (counts : Array Nat) (v : Nat) :
    (keys.foldl (fun counts key => counts.modify key (· + 1)) counts)[v]? =
      counts[v]?.map (· + keys.count v) := by
  induction keys generalizing counts with
  | nil => simp
  | cons k keys ih =>
      rw [List.foldl_cons, ih, Array.getElem?_modify, List.count_cons]
      by_cases hk : k = v
      · subst hk
        simp only [↓reduceIte, Option.map_map, beq_self_eq_true]
        congr 1
        funext c
        simp only [Function.comp_apply]
        omega
      · simp [hk]

theorem countKeys_getElem? {n v : Nat} (keys : List Nat) (hv : v < n) :
    (countKeys n keys)[v]? = some (keys.count v) := by
  rw [countKeys, countKeys_fold]
  simp [hv]

@[simp] theorem size_countKeys (n : Nat) (keys : List Nat) : (countKeys n keys).size = n := by
  have hfold : ∀ counts : Array Nat,
      (keys.foldl (fun counts key => counts.modify key (· + 1)) counts).size = counts.size := by
    induction keys with
    | nil => intro counts; rfl
    | cons k keys ih => intro counts; rw [List.foldl_cons, ih, Array.size_modify]
  rw [countKeys, hfold, Array.size_replicate]

/-! ### Running totals -/

/-- One step of the running totals. -/
def addTotal (state : Array Nat × Nat) (count : Nat) : Array Nat × Nat :=
  (state.1.push (state.2 + count), state.2 + count)

theorem addTotal_fold (counts : List Nat) :
    (counts.foldl addTotal (#[0], 0)).2 = counts.sum ∧
      (counts.foldl addTotal (#[0], 0)).1.size = counts.length + 1 ∧
      ∀ i ≤ counts.length,
        (counts.foldl addTotal (#[0], 0)).1[i]? = some (counts.take i).sum := by
  induction counts using List.reverseRecOn with
  | nil => simp
  | append_singleton counts c ih =>
      obtain ⟨hsum, hsize, hget⟩ := ih
      rw [List.foldl_concat]
      refine ⟨by simp [addTotal, hsum], by simp [addTotal, hsize], fun i hi => ?_⟩
      rw [addTotal, Array.getElem?_push, hsize, hsum]
      rw [List.length_append, List.length_singleton] at hi
      rcases Nat.lt_or_eq_of_le hi with hlt | rfl
      · rw [if_neg (by omega), hget i (by omega), List.take_append_of_le_length (by omega)]
      · rw [if_pos rfl, List.take_of_length_le (by simp), List.sum_append]
        simp

theorem runningTotals_eq (counts : Array Nat) :
    runningTotals counts = (counts.toList.foldl addTotal (#[0], 0)).1 := by
  rw [runningTotals, ← Array.foldl_toList]
  rfl

theorem size_runningTotals (counts : Array Nat) :
    (runningTotals counts).size = counts.size + 1 := by
  rw [runningTotals_eq, (addTotal_fold counts.toList).2.1, Array.length_toList]

theorem runningTotals_getElem? {counts : Array Nat} {i : Nat} (hi : i ≤ counts.size) :
    (runningTotals counts)[i]? = some (counts.toList.take i).sum := by
  rw [runningTotals_eq]
  exact (addTotal_fold counts.toList).2.2 i hi

/-- The offsets of the rows are where the rows start. -/
theorem offsets_getElem? {n v : Nat} (keys : List Nat) (hv : v ≤ n) :
    (runningTotals (countKeys n keys))[v]? = some (rowStart keys v) := by
  rw [runningTotals_getElem? (by simpa using hv)]
  congr 1
  induction v with
  | zero => simp [rowStart_zero]
  | succ v ih =>
      have hcount := countKeys_getElem? keys (show v < n by omega)
      rw [← Array.getElem?_toList] at hcount
      rw [List.take_add_one, hcount, List.sum_append, ih (by omega), rowStart_succ]
      simp

/-! ### Slots

The cursor of a row stands behind the items of the row that have a slot. -/

theorem cursors_getElem? (offsets : Array Nat) (keys : List Nat) (state : Array Nat) (v : Nat) :
    (keys.foldl takeSlot (offsets, state)).1[v]? = offsets[v]?.map (· + keys.count v) := by
  -- Taking slots moves the cursors as counting moves the counters.
  have hfold : ∀ state : Array Nat × Array Nat, (keys.foldl takeSlot state).1 =
      keys.foldl (fun counts key => counts.modify key (· + 1)) state.1 := by
    induction keys with
    | nil => intro state; rfl
    | cons k keys ih => intro state; rw [List.foldl_cons, ih]; rfl
  rw [hfold, countKeys_fold]

theorem slots_concat {offsets : Array Nat} (keys : List Nat) {k start : Nat}
    (hk : offsets[k]? = some start) :
    slots offsets (keys ++ [k]) = (slots offsets keys).push (start + keys.count k) := by
  have hcursor := cursors_getElem? offsets keys #[] k
  rw [hk] at hcursor
  rw [slots, slots, List.foldl_concat, takeSlot, Array.getD_eq_getD_getElem?, hcursor]
  rfl

theorem size_slots (offsets : Array Nat) (keys : List Nat) :
    (slots offsets keys).size = keys.length := by
  have hfold : ∀ state : Array Nat × Array Nat,
      (keys.foldl takeSlot state).2.size = state.2.size + keys.length := by
    induction keys with
    | nil => intro state; rfl
    | cons k keys ih =>
        intro state
        rw [List.foldl_cons, ih, takeSlot, Array.size_push, List.length_cons]
        omega
  rw [slots, hfold]
  simp

/-! ### Placing the items -/

/-- The items after the given entries have been placed. -/
def placed (offsets : Array Nat) (blank : Array β) (entries : List (Nat × β)) : Array β :=
  ((slots offsets (entries.map (·.1))).toList.zip (entries.map (·.2))).foldl
    (fun items (slot, x) => items.setIfInBounds slot x) blank

theorem placed_concat {offsets : Array Nat} (blank : Array β) (entries : List (Nat × β))
    {k start : Nat} (x : β) (hk : offsets[k]? = some start) :
    placed offsets blank (entries ++ [(k, x)]) =
      (placed offsets blank entries).setIfInBounds (start + (entries.map (·.1)).count k) x := by
  have hlen : (slots offsets (entries.map (·.1))).toList.length = (entries.map (·.2)).length := by
    rw [Array.length_toList, size_slots, List.length_map, List.length_map]
  rw [placed, placed, List.map_append, List.map_append, List.map_singleton, List.map_singleton,
    slots_concat _ hk, Array.toList_push, List.zip_append hlen, List.foldl_append]
  rfl

@[simp] theorem size_placed (offsets : Array Nat) (blank : Array β) (entries : List (Nat × β)) :
    (placed offsets blank entries).size = blank.size := by
  have hfold : ∀ (l : List (Nat × β)) (items : Array β),
      (l.foldl (fun items (slot, x) => items.setIfInBounds slot x) items).size = items.size := by
    intro l
    induction l with
    | nil => intro items; rfl
    | cons e l ih => intro items; rw [List.foldl_cons, ih, Array.size_setIfInBounds]
  rw [placed, hfold]

/-- The items with key `v`, in order. -/
def withKey (v : Nat) (entries : List (Nat × β)) : List β :=
  (entries.filter (·.1 = v)).map (·.2)

theorem length_withKey (v : Nat) (entries : List (Nat × β)) :
    (withKey v entries).length = (entries.map (·.1)).count v := by
  rw [withKey, List.length_map, ← List.countP_eq_length_filter, List.count, List.countP_map]
  exact List.countP_congr fun e _ => by simp

theorem withKey_concat_self (k : Nat) (entries : List (Nat × β)) (x : β) :
    withKey k (entries ++ [(k, x)]) = withKey k entries ++ [x] := by
  simp [withKey]

theorem withKey_concat_of_ne {k v : Nat} (h : k ≠ v) (entries : List (Nat × β)) (x : β) :
    withKey v (entries ++ [(k, x)]) = withKey v entries := by
  simp [withKey, h]

/-- What has been placed lies in its row, in order: an item goes behind the ones
of its row that came before it, and never into another row. -/
theorem placed_getElem? {n : Nat} {offsets : Array Nat} {blank : Array β}
    {entries : List (Nat × β)} (hkeys : ∀ e ∈ entries, e.1 < n)
    (hoffsets : ∀ v ≤ n, offsets[v]? = some (rowStart (entries.map (·.1)) v))
    (hblank : blank.size = rowStart (entries.map (·.1)) n)
    (done rest : List (Nat × β)) (hdone : entries = done ++ rest) {v j : Nat} (hv : v < n)
    (hj : j < (withKey v done).length) :
    (placed offsets blank done)[rowStart (entries.map (·.1)) v + j]? = (withKey v done)[j]? := by
  induction done using List.reverseRecOn generalizing rest j with
  | nil => simp [withKey] at hj
  | append_singleton done e ih =>
      obtain ⟨k, x⟩ := e
      rw [List.append_assoc] at hdone
      have hk : k < n := hkeys (k, x) (by simp [hdone])
      -- The new item has its slot inside row `k`, since the whole row has room.
      have hroom : ∀ w, (withKey w done).length + (if k = w then 1 else 0) ≤
          (entries.map (·.1)).count w := by
        intro w
        rw [length_withKey, hdone]
        simp only [List.map_append, List.map_cons, List.count_append, List.count_cons,
          List.singleton_append, beq_iff_eq]
        omega
      rw [placed_concat blank done x (hoffsets k (by omega)), ← length_withKey,
        Array.getElem?_setIfInBounds]
      have hroomk := hroom k
      have hroomv := hroom v
      have hlast := rowStart_add_count_le (entries.map (·.1)) hk
      rw [if_pos rfl] at hroomk
      by_cases hkv : k = v
      · subst hkv
        rw [withKey_concat_self] at hj ⊢
        rw [List.length_append, List.length_singleton] at hj
        by_cases hjlast : (withKey k done).length = j
        · rw [if_pos (by omega), if_pos (by simp; omega), ← hjlast, List.getElem?_concat_length]
        · rw [if_neg (by omega), ih _ hdone (by omega),
            List.getElem?_append_left (by omega)]
      · rw [withKey_concat_of_ne hkv] at hj ⊢
        have hapart : rowStart (entries.map (·.1)) k + (withKey k done).length ≠
            rowStart (entries.map (·.1)) v + j := by
          rcases Nat.lt_or_gt_of_ne hkv with hlt | hgt
          · have := rowStart_add_count_le (entries.map (·.1)) hlt
            omega
          · have := rowStart_add_count_le (entries.map (·.1)) hgt
            omega
        rw [if_neg hapart, ih _ hdone hj]

/-! ### The rows of a list -/

theorem size_offsets_ofList [Inhabited β] (n : Nat) (entries : List (Nat × β)) :
    (ofList n entries).offsets.size = n + 1 := by
  rw [ofList, size_runningTotals, size_countKeys]

section

variable [Inhabited β] {n : Nat} {entries : List (Nat × β)}

theorem offsets_ofList_getElem? {v : Nat} (hv : v ≤ n) :
    (ofList n entries).offsets[v]? = some (rowStart (entries.map (·.1)) v) :=
  offsets_getElem? _ hv

theorem offsets_ofList_getD {v : Nat} (hv : v ≤ n) :
    (ofList n entries).offsets.getD v 0 = rowStart (entries.map (·.1)) v := by
  rw [Array.getD_eq_getD_getElem?, offsets_ofList_getElem? hv, Option.getD_some]

theorem items_ofList (n : Nat) (entries : List (Nat × β)) :
    (ofList n entries).items = placed (ofList n entries).offsets
      (Array.replicate ((ofList n entries).offsets.getD n 0) default) entries := rfl

theorem size_items_ofList :
    (ofList n entries).items.size = rowStart (entries.map (·.1)) n := by
  rw [items_ofList, size_placed, Array.size_replicate, offsets_ofList_getD (Nat.le_refl n)]

theorem fits_ofList (n : Nat) (entries : List (Nat × β)) : (ofList n entries).Fits := by
  intro v hv
  rw [size_offsets_ofList] at hv
  rw [offsets_ofList_getD (by omega), offsets_ofList_getD (by omega), size_items_ofList]
  exact ⟨rowStart_mono _ (by omega), rowStart_mono _ (by omega)⟩

/-- A row of a list can be read. -/
theorem row?_ofList (entries : List (Nat × β)) {v : Nat} (hv : v < n) :
    (ofList n entries).row? v = .ok ((ofList n entries).row v) :=
  (fits_ofList n entries).row?_eq_ok (by rw [size_offsets_ofList]; omega)

/-- The rows hold all items between them. -/
theorem sum_rowSize_ofList :
    ((List.range n).map (ofList n entries).rowSize).sum = (ofList n entries).items.size := by
  have hrows : ∀ m ≤ n, ((List.range m).map (ofList n entries).rowSize).sum =
      rowStart (entries.map (·.1)) m := by
    intro m hm
    induction m with
    | zero => simp [rowStart_zero]
    | succ m ih =>
        have hnext := rowStart_succ (entries.map (·.1)) m
        rw [List.range_succ, List.map_append, List.sum_append, ih (by omega), List.map_singleton,
          List.sum_singleton, rowSize, offsets_ofList_getD hm, offsets_ofList_getD (by omega)]
        omega
  rw [hrows n (Nat.le_refl n), size_items_ofList]

/-- **The sort is stable and complete**: a row holds the items with its key, in
the order of the list. -/
theorem row_ofList (hkeys : ∀ e ∈ entries, e.1 < n) {v : Nat} (hv : v < n) :
    (ofList n entries).row v = withKey v entries := by
  have hblank : (Array.replicate ((ofList n entries).offsets.getD n 0)
      (default : β)).size = rowStart (entries.map (·.1)) n := by
    rw [Array.size_replicate, offsets_ofList_getD (Nat.le_refl n)]
  have hsize : (ofList n entries).items.size = rowStart (entries.map (·.1)) n := size_items_ofList
  have hfit := rowStart_add_count_le (entries.map (·.1)) hv
  have hnext := rowStart_succ (entries.map (·.1)) v
  rw [← length_withKey] at hfit hnext
  rw [row, offsets_ofList_getD (by omega), offsets_ofList_getD (by omega)]
  refine List.ext_getElem? fun j => ?_
  rw [Array.getElem?_toList, Array.getElem?_extract]
  by_cases hj : j < (withKey v entries).length
  · rw [if_pos (by omega), items_ofList]
    exact placed_getElem? hkeys (fun w hw => offsets_ofList_getElem? hw) hblank entries []
      (List.append_nil entries).symm hv hj
  · rw [if_neg (by omega), List.getElem?_eq_none (by omega)]

/-- The rows lie behind one another and are all there is. -/
theorem toList_items_ofList :
    (ofList n entries).items.toList = (List.range n).flatMap (ofList n entries).row := by
  have hrows : ∀ m ≤ n, (List.range m).flatMap (ofList n entries).row =
      (ofList n entries).items.toList.take (rowStart (entries.map (·.1)) m) := by
    intro m hm
    induction m with
    | zero => simp [rowStart_zero]
    | succ m ih =>
        have hnext := rowStart_succ (entries.map (·.1)) m
        rw [List.range_succ, List.flatMap_append, ih (by omega), List.flatMap_singleton, row,
          offsets_ofList_getD (by omega), offsets_ofList_getD hm, Array.toList_extract,
          List.extract_eq_take_drop, ← List.take_add]
        congr 1
        omega
  rw [hrows n (Nat.le_refl n), ← size_items_ofList, ← Array.length_toList, List.take_length]

end

end KCut.Rows
