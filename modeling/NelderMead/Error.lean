import NelderMead.Outcome
import NelderMead.Decimal.Style

/-!
# Causes of failure

* `EvalError` — what a function to be minimised, or a constraint, reports of its own failure.
* `SolverError` — why a problem could not be built or a run could not be finished.
* `SolverError.message` — the one place where causes become words.

The two causes that wrap an `EvalError` keep it, so that a caller gets back exactly what the
function reported (`SolverError.evalError?`).
-/

namespace NelderMead

/-- The failure of a function at a point, in the function's own words. -/
structure EvalError where
  message : String
  deriving DecidableEq

/-- What has a dimension that can disagree with another. -/
inductive Subject where
  | upperBounds
  | bounds
  | objective
  | constraint (index : Nat)
  | named (name : String)
  deriving DecidableEq

/-- The words for a subject. -/
def Subject.name : Subject → String
  | .upperBounds => "upper bounds"
  | .bounds => "bounds"
  | .objective => "objective"
  | .constraint index => "constraint " ++ toString index
  | .named name => name

/-- What is wrong with a parameter of a run. -/
inductive BadParameter where
  /-- The fraction of the bound widths that sizes the first simplex. -/
  | spreadFraction (value : Float)
  /-- The coefficient of the penalty. -/
  | penaltyCoefficient (value : Float)
  /-- The deviation of one coordinate of the first simplex. -/
  | spread (value : Float)
  | described (detail : String)
  deriving DecidableEq

/-- The words for a bad parameter. -/
def BadParameter.detail : BadParameter → String
  | .spreadFraction value => rule "spread fraction" value
  | .penaltyCoefficient value => rule "penalty coefficient" value
  | .spread value => rule "initial simplex spread" value
  | .described detail => detail
where
  /-- All three numbers obey one rule. -/
  rule (what : String) (value : Float) : String :=
    what ++ " must be finite and non-negative, got " ++ Decimal.Style.message.write value

/-- Whether a parameter obeys the rule for the numbers that size or weigh things. -/
def isFiniteNonneg (x : Float) : Bool := x.isFinite && !decide (x < 0.0)

/-- **Causes of failure of a solver.** -/
inductive SolverError where
  /-- The objective failed. -/
  | functionEvaluation (source : EvalError)
  /-- Constraint `index` failed. -/
  | constraintEvaluation (index : Nat) (source : EvalError)
  | dimensionMismatch (what : Subject) (expected got : Nat)
  | invalidDimension
  /-- Bounds that are not finite or in the wrong order. -/
  | invalidBounds (index : Nat) (lower upper : Float)
  /-- A given simplex that is not made of `n + 1` points of dimension `n`. -/
  | invalidInitialSimplex (expectedRows expectedCols rows cols : Nat)
  | invalidParameters (what : BadParameter)
  deriving DecidableEq

namespace SolverError

/-- The error message. -/
def message : SolverError → String
  | functionEvaluation source => "objective function evaluation failed: " ++ source.message
  | constraintEvaluation index source =>
    "constraint " ++ toString index ++ " evaluation failed: " ++ source.message
  | dimensionMismatch what expected got =>
    what.name ++ " dimension mismatch: expected " ++ toString expected ++ ", got " ++ toString got
  | invalidDimension => "invalid dimension or empty vector"
  | invalidBounds index lower upper =>
    "invalid bounds at index " ++ toString index ++ ": [" ++ Decimal.Style.message.write lower
      ++ ", " ++ Decimal.Style.message.write upper ++ "]"
  | invalidInitialSimplex expectedRows expectedCols rows cols =>
    "invalid initial simplex: expected " ++ toString expectedRows ++ "x" ++ toString expectedCols
      ++ ", got " ++ toString rows ++ "x" ++ toString cols
  | invalidParameters what => "invalid parameters: " ++ what.detail

/-- What the function that failed reported, if the cause is such a failure. -/
def evalError? : SolverError → Option EvalError
  | functionEvaluation source => some source
  | constraintEvaluation _ source => some source
  | _ => none

/-- Whether a function failed. -/
def isEvaluationError (e : SolverError) : Bool := e.evalError?.isSome

end SolverError

end NelderMead
