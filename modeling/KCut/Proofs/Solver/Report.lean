import KCut.Proofs.Checked
import KCut.Proofs.Run
import KCut.Solver

/-!
# KCut.Proofs.Solver.Report

What a run reports.

On a graph with nodes, a run has a report iff its trials come to an end, and the report shows
what they have left in the best slot and in their scope (`compute_of_grasp`, `grasp_of_compute`).
So what holds of the trials is read off the report, and a run without a report has ended in the
fault of its trials (`compute_of_fault`).
-/

namespace KCut.Solver

variable {α : Type} [Weight α] {s : Solver α} {seed : UInt64} {report : Report α}
  {b : Buffers α} {scope : Scope α}

omit [Weight α] in
/-- The scope in which the trials of a run begin. -/
def startScope (s : Solver α) (freshSeed : UInt64) : Scope α :=
  let seed := (s.config.randomSeed.map UInt64.ofNat).getD freshSeed
  { s.scope seed with journal := #[.noted (.solveStart (s.settings seed))] }

/-- A run on a graph without nodes. -/
theorem compute_of_no_nodes (h : s.graph.nodeCount = 0) (seed : UInt64) :
    ∃ report, s.compute seed = .ok report ∧ report.answer = ⟨#[], .of 0, .zero⟩ ∧
      report.journal.messages = [] := by
  rw [compute]
  dsimp only
  rw [if_pos h]
  exact ⟨_, rfl, rfl, rfl⟩

/-- The report shows what the trials have left. -/
structure Reports (report : Report α) (b : Buffers α) (scope : Scope α) : Prop where
  answer_eq : report.answer = ⟨b.arena.best.assignment, b.arena.best.cost, scope.statistics⟩
  journal_eq : report.journal = scope.journal.push (.noted (.solveEnd b.arena.best.cost
    scope.statistics.trialsCompleted scope.statistics.bestImprovements))

variable (hpos : 0 < s.graph.nodeCount)

include hpos

theorem compute_eq (freshSeed : UInt64) :
    s.compute freshSeed = s.runIn (s.startScope freshSeed) := by
  rw [compute]
  dsimp only
  rw [if_neg (Nat.pos_iff_ne_zero.1 hpos)]
  rfl

/-- **Trials that come to an end** are reported. -/
theorem compute_of_grasp (h : s.grasp (s.startScope seed) = .ok (b, scope)) :
    ∃ report, s.compute seed = .ok report ∧ Reports report b scope := by
  rw [compute_eq hpos, runIn, StateT.run, h]
  exact ⟨_, rfl, rfl, rfl⟩

/-- Trials with a fault are not. -/
theorem compute_of_fault {fault : Fault} (h : s.grasp (s.startScope seed) = .error fault) :
    s.compute seed = .error fault := by
  rw [compute_eq hpos, runIn, StateT.run, h]
  rfl

/-- **Every report** is one of trials that have come to an end. -/
theorem grasp_of_compute (h : s.compute seed = .ok report) :
    ∃ b scope, s.grasp (s.startScope seed) = .ok (b, scope) ∧ Reports report b scope := by
  rw [compute_eq hpos, runIn, StateT.run] at h
  obtain ⟨⟨b, scope⟩, hgrasp, h⟩ := exists_of_bind_eq_ok h
  cases h
  exact ⟨b, scope, hgrasp, rfl, rfl⟩

end KCut.Solver
