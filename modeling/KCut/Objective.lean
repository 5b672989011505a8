import KCut.Weight

/-!
# KCut.Objective

The direction of the optimisation and the comparison of costs that it fixes.

Design points:

* `Objective.better` is the strict comparison of two weights, used for the
  improvement of a single move; `Objective.prefers` extends it to cost cells.
* A cost cell is a `Score`: `worst` until something has been scored. Every real
  cost is preferred to `worst`, and `worst` is preferred to nothing, so the
  first scored candidate always wins its comparison.
-/

namespace KCut

/-- Whether heavier or lighter cuts are better. -/
inductive Objective
  | maximize
  | minimize
deriving Repr, DecidableEq, Inhabited

/-- The content of a cost cell. -/
inductive Score (α : Type)
  /-- Nothing has been scored: every cost is better than this. -/
  | worst
  /-- The cost of a scored candidate. -/
  | of (cost : α)
deriving Repr, DecidableEq, Inhabited

namespace Objective

/-- The direction that a configuration's `minimize` flag selects. -/
def ofMinimize (minimize : Bool) : Objective :=
  if minimize then .minimize else .maximize

/-- The word for a direction in configurations and logs. -/
def name : Objective → String
  | .maximize => "maximize"
  | .minimize => "minimize"

/-- The direction that a word names, if it names one. -/
def ofName? : String → Option Objective
  | "maximize" => some .maximize
  | "minimize" => some .minimize
  | _ => none

/-- The title of a direction in descriptions. -/
def title : Objective → String
  | .maximize => "Maximize"
  | .minimize => "Minimize"

theorem ofName?_name (o : Objective) : ofName? o.name = some o := by
  cases o <;> rfl

variable {α : Type} [Weight α]

/-- `o.better x y`: cost `x` is strictly better than cost `y`. -/
def better (o : Objective) (x y : α) : Bool :=
  match o with
  | .maximize => Weight.less y x
  | .minimize => Weight.less x y

/-- The cost is better than an unscored cell. -/
def beatsWorst (o : Objective) (x : α) : Bool :=
  match o with
  | .maximize => Weight.aboveBottom x
  | .minimize => Weight.belowTop x

/-- `o.prefers x y`: the content `x` of a cost cell is strictly better than `y`. -/
def prefers (o : Objective) : Score α → Score α → Bool
  | .of x, .of y => o.better x y
  | .of x, .worst => o.beatsWorst x
  | .worst, _ => false

@[simp] theorem better_maximize (x y : α) : maximize.better x y = Weight.less y x := rfl

@[simp] theorem better_minimize (x y : α) : minimize.better x y = Weight.less x y := rfl

@[simp] theorem prefers_of_of (o : Objective) (x y : α) :
    o.prefers (.of x) (.of y) = o.better x y := rfl

@[simp] theorem prefers_of_worst (o : Objective) (x : α) :
    o.prefers (.of x) .worst = o.beatsWorst x := rfl

@[simp] theorem prefers_worst (o : Objective) (y : Score α) : o.prefers .worst y = false := rfl

/-- The binary64 number that stands for an unscored cell in reports. -/
def worstCost : Objective → Float
  | .maximize => Float.ofBits 0xfff0000000000000
  | .minimize => Float.ofBits 0x7ff0000000000000

end Objective

/-- The content of a cost cell as a report shows it. -/
def Score.report (o : Objective) : Score Float → Float
  | .worst => o.worstCost
  | .of cost => cost

end KCut
