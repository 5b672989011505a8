import KCut.Proofs.Graph.Incidence
import KCut.Proofs.Twins.Construction

/-!
# KCut.Proofs.Construction.AnyOrder

Random placement with any minimums, in any buffers and in any order of the blocks.

The minimums need not fit: each community reserves as many nodes as its minimum asks for
and the communities before it have left (`reservedBefore`). The candidate is determined by
the graph, the minimums, the batch size, the workers and the random stream, and so is the
stream afterwards (`placement_in_any_order`). A run draws the blocks from the first to the
last (`build`), and several workers draw them in any order.
-/

namespace KCut

namespace Reservation

/-- The nodes among `n` that the communities before `c` reserve: each of them its minimum, or what
is left over. -/
def reservedBefore (n : Nat) (mins : List Nat) : Nat → Nat
  | 0 => 0
  | c + 1 => reservedBefore n mins c + min (mins.getD c 0) (n - reservedBefore n mins c)

/-- The communities behind the first one reserve from what it leaves. -/
theorem reservedBefore_cons (n m : Nat) (rest : List Nat) (c : Nat) :
    reservedBefore n (m :: rest) (c + 1) =
      min m n + reservedBefore (n - min m n) rest c := by
  induction c with
  | zero => simp [reservedBefore]
  | succ c ih =>
      rw [reservedBefore, ih, List.getD_cons_succ, reservedBefore, Nat.sub_sub, Nat.add_assoc]

/-- What a community reserves is its minimum, or what the communities before it leave. -/
theorem getD_granted (n : Nat) (mins : List Nat) (c : Nat) :
    (granted n mins).getD c 0 = min (mins.getD c 0) (n - reservedBefore n mins c) := by
  induction mins generalizing n c with
  | nil => simp [granted]
  | cons m rest ih =>
      cases c with
      | zero => rfl
      | succ c =>
          rw [granted, List.getD_cons_succ, List.getD_cons_succ, ih, reservedBefore_cons,
            Nat.sub_sub]

end Reservation

namespace RandomPlacement

open Reservation (granted granted_eq_self getD_granted reservedBefore)

variable {α : Type}

/-- A scope beside itself, from where it stands. -/
theorem image_self (scope : Scope α) :
    Scope.Image id ⟨scope.concurrency, scope.journal⟩ ⟨scope.concurrency, scope.journal⟩ scope
      scope :=
  ⟨rfl, rfl, rfl, rfl, rfl, #[], by simp, by simp⟩

/-- **Random placement depends neither on the order of its blocks nor on its buffers.** For any
number of communities that have an id of 32 bits, it gives every node a community and counts
all of them. Each community has as many nodes as its minimum says or as the communities before
it leave, so at least its minimum if all minimums fit. Minimums past the last community are
ignored. -/
theorem placement_in_any_order {g : Graph α} (hn : g.nodeCount < Tally.modulus) {k : Nat}
    (hk : 0 < k) (hids : k ≤ 2 ^ 32) (minSizes : Array Nat) (minBatch : Nat) (scope : Scope α) :
    let mins := minSizes.toList.take k
    ∃ (a : Assignment) (t : Tally) (stream : Random.Stream),
      (∀ order : List (Partition × Random.Stream) → List (Partition × Random.Stream),
        (∀ tasks, (order tasks).Perm tasks) →
        ∀ (a₀ : Assignment) (t₀ : Tally), a₀.size = g.nodeCount → t₀.size = k →
        ∃ scope', buildIn order (max minBatch 1) g minSizes a₀ t₀ scope = .ok ((a, t), scope') ∧
          scope'.stream = stream) ∧
      a.size = g.nodeCount ∧ (∀ c ∈ a, c < k) ∧
      a.communitySizes k = .ok t ∧ t.toList.sum = g.nodeCount ∧
      (∀ c < k, min (mins.getD c 0) (g.nodeCount - reservedBefore g.nodeCount mins c) ≤
        t.getD c 0) ∧
      (mins.sum ≤ g.nodeCount → ∀ c < k, mins.getD c 0 ≤ t.getD c 0) := by
  intro mins
  have hkword : k ≤ 2 ^ 64 := hids.trans (by decide)
  obtain ⟨⟨a, t⟩, scope₁, hrun, hlegal, hagrees, hgranted, -⟩ :=
    buildIn_gives hn hk hkword List.Perm.refl minSizes (Assignment.size_zero _)
      (Tally.size_zero k) (max minBatch 1) scope
  dsimp only at hlegal hagrees hgranted
  obtain ⟨sizes, hsizes, hcounts, hsum⟩ := Assignment.communitySizes_eq hlegal
  obtain rfl : t = sizes := hagrees.unique hcounts
  have hleast : ∀ c < k, (granted g.nodeCount mins).getD c 0 ≤ t.getD c 0 := by
    intro c hc
    rw [hagrees.getD_eq hc]
    exact hgranted c
  refine ⟨a, t, scope₁.stream, ?_, hlegal.size_eq, fun c hc => hlegal.mem_lt (by simpa using hc),
    hsizes, hsum, fun c hc => ?_, fun hfit c hc => ?_⟩
  · intro order horder a₀ t₀ ha ht
    -- The same placement in new buffers, with the blocks from the first to the last.
    have hboth := buildIn_simulates rfl rfl hn hk hkword List.Perm.refl horder minSizes
      (Assignment.size_zero _) ha (Tally.size_zero k) ht (max minBatch 1) scope scope
      (image_self scope)
    rw [hrun] at hboth
    obtain ⟨⟨_, scope'⟩, hrun', ⟨-, rfl⟩, himage⟩ := hboth.exists_of_ok
    exact ⟨scope', hrun', himage.stream_eq⟩
  · rw [← getD_granted]
    exact hleast c hc
  · have hfull := hleast c hc
    rwa [granted_eq_self hfit] at hfull

/-- Three nodes in two communities, of which the second one reserves one. The two free nodes are
drawn in two blocks, in order and in new buffers, or the other way round and in used ones. -/
theorem placement_triangle :
    let g : Graph Rat := (EdgeList.triangle false).toGraph
    let scope : Scope Rat := .start 2 7 .never
    (Partition.byCount 2 scope.concurrency 1).length = 2 ∧
    ∃ a t stream,
      (∃ scope', buildIn id 1 g #[0, 1, 9] (.zero 3) (.zero 2) scope = .ok ((a, t), scope') ∧
        scope'.stream = stream) ∧
      (∃ scope', buildIn List.reverse 1 g #[0, 1, 9] #[7, 1, 4] #[8, 3] scope =
        .ok ((a, t), scope') ∧ scope'.stream = stream) ∧
      a.communitySizes 2 = .ok t ∧ t.toList.sum = 3 ∧ 1 ≤ t.getD 1 0 := by
  intro g scope
  obtain ⟨a, t, stream, hany, -, -, hsizes, hsum, -, hfit⟩ :=
    placement_in_any_order (g := g) (by decide) (k := 2) (by decide) (by decide) #[0, 1, 9] 1 scope
  exact ⟨by decide, a, t, stream,
    hany id List.Perm.refl _ _ (Assignment.size_zero 3) (Tally.size_zero 2),
    hany List.reverse List.reverse_perm _ _ rfl rfl, hsizes, hsum, hfit (by decide) 1 (by decide)⟩

end RandomPlacement

end KCut
