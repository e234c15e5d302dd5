import NelderMead.BlackBox
import NelderMead.Bounds
import NelderMead.ArrayText
import NelderMead.Journal

/-!
# Constraints

A constraint is a function `g` that a solution should make `g x ≤ 0`.  Its value is signed: what is
positive is the violation.

* `LinearConstraint` — `a · x + b`.
* `QuadraticConstraint` — `x · q x + a · x + b`.
* `Constraint` — one of these, or a black box.
* `Constraint.observe` — the value at a point, written into the journal.
* `Bounds.constraints` — the linear constraints that say that a point lies in a box.

A linear constraint at a point of another dimension is a fault.  A quadratic constraint at a point
that does not fit its matrix reports an error instead, because a matrix of the wrong shape passes
the comparison of dimensions that is made when a problem is built.
-/

namespace NelderMead

/-! ## Linear and quadratic constraints -/

/-- The constraint `a · x + b ≤ 0`. -/
structure LinearConstraint where
  a : Point
  b : Float

/-- The constraint `x · q x + a · x + b ≤ 0`. -/
structure QuadraticConstraint where
  q : Matrix
  a : Point
  b : Float

namespace LinearConstraint

/-- The value at a point. -/
def value (c : LinearConstraint) (x : Point) : Except Fault Float := do
  let linear ← Point.dot c.a x
  return linear + c.b

/-- The constraint in words. -/
def text (c : LinearConstraint) : String :=
  "LinearConstraint( " ++ ArrayText.vector c.a ++ "^T * x + "
    ++ Decimal.Style.record.write c.b ++ " ≤ 0)"

end LinearConstraint

namespace QuadraticConstraint

/-- Whether matrix and vector fit a point. -/
def Fits (c : QuadraticConstraint) (x : Point) : Prop :=
  c.q.rowCount = x.length ∧ c.q.cols = x.length ∧ c.a.length = x.length

instance (c : QuadraticConstraint) (x : Point) : Decidable (c.Fits x) :=
  inferInstanceAs (Decidable (_ ∧ _ ∧ _))

/-- The value at a point, in the order `(x · q x + a · x) + b`. -/
def form (c : QuadraticConstraint) (x : Point) : Except Fault Float := do
  let qx ← c.q.apply x
  let quadratic ← Point.dot x qx
  let linear ← Point.dot c.a x
  return quadratic + linear + c.b

/-- The report that a point does not fit. -/
def misfit (c : QuadraticConstraint) (x : Point) : EvalError :=
  ⟨"quadratic constraint of size " ++ toString c.a.length ++ " evaluated at a point of length "
    ++ toString x.length⟩

/-- The value at a point that fits. -/
def value (c : QuadraticConstraint) (x : Point) : Except (Failure EvalError) Float :=
  if c.Fits x then (c.form x).mapError .fault else .error (.error (c.misfit x))

/-- The constraint in words. -/
def text (c : QuadraticConstraint) : String :=
  "QuadraticConstraint( x^T * " ++ ArrayText.matrix c.q ++ " * x + " ++ ArrayText.vector c.a
    ++ "^T * x + " ++ Decimal.Style.record.write c.b ++ " ≤ 0)"

end QuadraticConstraint

/-! ## Constraints of any kind -/

/-- **A constraint.** -/
inductive Constraint (σ : Type) where
  | blackBox (g : BlackBox σ)
  | linear (g : LinearConstraint)
  | quadratic (g : QuadraticConstraint)

namespace Constraint

variable {σ : Type}

/-- The dimension of the points it takes, where that is known. -/
def dimension : Constraint σ → Option Nat
  | blackBox g => g.dimension
  | linear g => some g.a.length
  | quadratic g => some g.a.length

/-- **The signed value at a point.**  Only a black box acts on the world. -/
def evaluate (c : Constraint σ) (x : Point) : StateM σ (Except (Failure EvalError) Float) :=
  match c with
  | blackBox g => do return (← g.call x).mapError .error
  | linear g => return (g.value x).mapError .fault
  | quadratic g => return g.value x

/-- Evaluates the constraint as number `i` of a problem. -/
def observe (c : Constraint σ) (i : Nat) (x : Point) : Run σ EvalError Float :=
  Run.consult (.constraint i) x c.evaluate

/-- Whether the constraint is one of the caller's functions. -/
def isBlackBox : Constraint σ → Bool
  | blackBox _ => true
  | _ => false

/-- The constraint in words, where it is not a black box. -/
def text? : Constraint σ → Option String
  | blackBox _ => none
  | linear g => some g.text
  | quadratic g => some g.text

end Constraint

/-! ## The box as constraints -/

namespace Bounds

/-- The vector of dimension `n` with `value` at coordinate `i` and zeros elsewhere. -/
def axisVector (n i : Nat) (value : Float) : Point := (Point.zeros n).set i value

/-- The two constraints for the coordinate `i` of a point of dimension `n`: `-xᵢ + l ≤ 0` and
`xᵢ - u ≤ 0`. -/
def sides (n i : Nat) (l u : Float) : List LinearConstraint :=
  [⟨axisVector n i (-1.0), l⟩, ⟨axisVector n i 1.0, -u⟩]

/-- **A box as constraints**: two for each coordinate, the lower limit first. -/
def linearConstraints (b : Bounds) : List LinearConstraint :=
  ((b.lower.zip b.upper).zipIdx).flatMap fun ((l, u), i) => sides b.length i l u

/-- The same constraints among those of a problem. -/
def constraints (σ : Type) (b : Bounds) : List (Constraint σ) :=
  b.linearConstraints.map .linear

end Bounds

end NelderMead
