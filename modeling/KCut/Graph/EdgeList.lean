import KCut.Graph.Basic

/-!
# KCut.Graph.EdgeList

Edge lists, the form in which callers hand over a graph.

Design points:

* An edge may come without a weight. If some edge of the list has one, the
  graph is weighted and the others weigh one.
* `EdgeList.build` refuses a list with a faulty edge and names the first one;
  of the two faults that one edge may have, the range of its ends is looked at
  before its weight.
* `EdgeList.store` stores the edges access by access. For a list without a
  problem no access is out of range, and it gives the graph that is built.
-/

namespace KCut

/-- An edge as given by the caller. -/
structure Edge (α : Type) where
  source : Nat
  target : Nat
  /-- Its weight, if it was given one. -/
  weight : Option α
deriving Repr, DecidableEq

/-- A graph as given by the caller. -/
structure EdgeList (α : Type) where
  nodeCount : Nat
  undirected : Bool
  /-- The edges, in the order they were given. -/
  edges : List (Edge α)
deriving Repr, DecidableEq

/-- Why an edge list is no graph. -/
inductive EdgeProblem (α : Type)
  | outOfRange (source target nodeCount : Nat)
  | nonFinite (source target : Nat) (weight : α)
deriving Repr, DecidableEq

namespace Edge

variable {α : Type} [Weight α]

/-- The weight of an edge in the graph built from it. -/
def weightOrOne (e : Edge α) : α :=
  e.weight.getD 1

/-- What is wrong with an edge between nodes `0, …, nodeCount - 1`. -/
def problem? (nodeCount : Nat) (e : Edge α) : Option (EdgeProblem α) :=
  if nodeCount ≤ e.source ∨ nodeCount ≤ e.target then
    some (.outOfRange e.source e.target nodeCount)
  else
    match e.weight with
    | none => none
    | some w => if Weight.isFinite w then none else some (.nonFinite e.source e.target w)

/-- The relationships stored for an edge, keyed by the node they are stored at. -/
def stored (undirected : Bool) (e : Edge α) : List (Nat × Arc α) :=
  (e.source, ⟨e.target, e.weightOrOne⟩) ::
    (if undirected then [(e.target, ⟨e.source, e.weightOrOne⟩)] else [])

end Edge

namespace EdgeList

variable {α : Type} [Weight α]

/-- The first problem of an edge list. -/
def problem? (l : EdgeList α) : Option (EdgeProblem α) :=
  l.edges.findSome? (Edge.problem? l.nodeCount)

/-- All relationships of an edge list, keyed by the node they are stored at, in
the order of the edges. -/
def stored (l : EdgeList α) : List (Nat × Arc α) :=
  l.edges.flatMap (Edge.stored l.undirected)

/-- The graph of an edge list. -/
def toGraph (l : EdgeList α) : Graph α where
  nodeCount := l.nodeCount
  outgoing := Rows.ofList l.nodeCount l.stored
  weighted := l.edges.any (·.weight.isSome)
  undirected := l.undirected

/-- The graph of an edge list, stored with each access checked. -/
def store (l : EdgeList α) : Except Fault (Graph α) :=
  return { l.toGraph with outgoing := ← Rows.sort l.nodeCount l.stored }

/-- Builds the graph of an edge list that has no problem. -/
def build (l : EdgeList α) : Except (EdgeProblem α) (Graph α) :=
  match l.problem? with
  | some problem => .error problem
  | none => .ok l.toGraph

theorem build_eq_ok_iff (l : EdgeList α) (g : Graph α) :
    l.build = .ok g ↔ l.problem? = none ∧ l.toGraph = g := by
  cases h : l.problem? <;> simp [build, h]

end EdgeList

/-- The text of a weight that is not finite. -/
def nonFiniteText (w : Float) : String :=
  if w.isNaN then "NaN" else if w < 0 then "-inf" else "inf"

def EdgeProblem.message : EdgeProblem Float → String
  | .outOfRange source target nodeCount =>
      s!"edge ({source}, {target}) out of range for {nodeCount} nodes"
  | .nonFinite source target weight =>
      s!"edge ({source}, {target}) has non-finite weight {nonFiniteText weight}"

end KCut
