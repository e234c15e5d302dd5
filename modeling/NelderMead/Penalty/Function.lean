import NelderMead.Constraint

/-!
# The penalised objective

Constraints enter the search through the objective: where a constraint is violated, the violation is
charged and the charge, times a coefficient, is added to the objective.  The sum is the *augmented*
value, and the search sees nothing else.

* `PenaltyFunction` — objective, constraints, shape of the charge and coefficient.
* `PenaltyFunction.penalty` — the charge for given values of the constraints.
* `PenaltyFunction.evaluate` — objective and constraints at a point, each evaluated once, in order,
  up to the first failure.
-/

namespace NelderMead

/-- What one evaluation of the augmented objective finds. -/
structure Evaluation where
  augmented : Float
  objective : Float
  constraints : Point
  deriving DecidableEq

/-- The violation of a constraint with value `g`: what is above zero.  A value that is not a number
is not above zero, and neither zero is. -/
def violation (g : Float) : Float := if 0.0 < g then g else 0.0

/-- **An objective with penalty.**  The coefficient `mu` is finite and not negative. -/
structure PenaltyFunction (σ : Type) where
  objective : BlackBox σ
  constraints : List (Constraint σ)
  shape : PenaltyShape
  mu : Float
  isFiniteNonneg_mu : isFiniteNonneg mu = true

namespace PenaltyFunction

variable {σ : Type}

/-- Checks the coefficient. -/
def of (objective : BlackBox σ) (constraints : List (Constraint σ)) (shape : PenaltyShape)
    (mu : Float) : Except SolverError (PenaltyFunction σ) :=
  if h : isFiniteNonneg mu = true then .ok ⟨objective, constraints, shape, mu, h⟩
  else .error (.invalidParameters (.penaltyCoefficient mu))

/-- The number of constraints. -/
def constraintCount (p : PenaltyFunction σ) : Nat := p.constraints.length

/-- The charges in order, summed from negative zero on, which changes no charge it is added to. -/
def totalCharge (shape : PenaltyShape) (g : Point) : Float :=
  g.foldl (fun s gi => s + shape.charge (violation gi)) (-0.0)

/-- **The penalty** for given values of the constraints. -/
def penalty (p : PenaltyFunction σ) (g : Point) : Float := p.mu * totalCharge p.shape g

/-! ## Evaluation -/

/-- Evaluates the objective alone, without penalty. -/
def objectiveAt (p : PenaltyFunction σ) (x : Point) : Run σ SolverError Float :=
  (p.objective.observe x).mapError .functionEvaluation

/-- Evaluates constraints in order, the first of them number `i`. -/
def constraintsFrom (x : Point) : Nat → List (Constraint σ) → Run σ SolverError Point
  | _, [] => return []
  | i, c :: cs => do
    let g ← (c.observe i x).mapError (.constraintEvaluation i)
    let gs ← constraintsFrom x (i + 1) cs
    return g :: gs

/-- Evaluates the constraints, up to the first that fails. -/
def constraintsAt (p : PenaltyFunction σ) (x : Point) : Run σ SolverError Point :=
  constraintsFrom x 0 p.constraints

/-- What the values of objective and constraints amount to. -/
def combine (p : PenaltyFunction σ) (f : Float) (g : Point) : Evaluation :=
  ⟨f + p.penalty g, f, g⟩

/-- **Evaluates everything at a point**, the objective first. -/
def evaluate (p : PenaltyFunction σ) (x : Point) : Run σ SolverError Evaluation := do
  let f ← p.objectiveAt x
  let g ← p.constraintsAt x
  return p.combine f g

/-- The augmented value at a point. -/
def augmentedAt (p : PenaltyFunction σ) (x : Point) : Run σ SolverError Float := do
  return (← p.evaluate x).augmented

/-- The settings in words. -/
def text (p : PenaltyFunction σ) : String :=
  "PenaltyFunction \x7b n_constraints: " ++ toString p.constraintCount ++ ", penalty: "
    ++ p.shape.label ++ ", mu: " ++ Decimal.Style.record.write p.mu ++ " \x7d"

end PenaltyFunction

end NelderMead
