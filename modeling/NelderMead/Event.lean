import NelderMead.Penalty.Shape
import NelderMead.Decimal.Style

/-!
# Events of a run

A run tells what it does as a list of events.  `Event.text` puts an event into words and
`Event.level` says how much detail a reader of the log must have asked for to see it.
-/

namespace NelderMead

/-- How detailed a log has to be to show an event. -/
inductive Level where
  | debug
  | trace
  deriving DecidableEq

/-- What happens in a run. -/
inductive Event where
  /-- A run from a sampled simplex begins. -/
  | started (dimension constraints maxIter : Nat) (shape : PenaltyShape) (mu : Float)
  | reflectionAccepted (iteration : Nat) (f : Float)
  | expansionAccepted (iteration : Nat) (f : Float)
  /-- The reflected point was taken in place of the expanded one. -/
  | expansionRejected (iteration : Nat) (f : Float)
  | contractionAccepted (iteration : Nat) (f : Float)
  | contractionRejected (iteration : Nat)
  /-- A run ends without a failure. -/
  | finished (iterations evaluations : Nat) (best : Option Float)
  deriving DecidableEq

namespace Event

/-- Runs are told at level `debug` and iterations at level `trace`. -/
def level : Event → Level
  | started .. => .debug
  | finished .. => .debug
  | _ => .trace

/-- A number that may be absent, as a description of a value. -/
def describeOption : Option Float → String
  | none => "None"
  | some x => "Some(" ++ Decimal.Style.record.write x ++ ")"

/-- What an iteration did, and the augmented value it ended with. -/
def step (iteration : Nat) (what : String) (f : Float) : String :=
  "iteration " ++ toString iteration ++ ": " ++ what ++ ", f = " ++ Decimal.Style.message.write f

/-- The event in words. -/
def text : Event → String
  | started dimension constraints maxIter shape mu =>
    "simplex: n = " ++ toString dimension ++ ", constraints = " ++ toString constraints
      ++ ", max_iter = " ++ toString maxIter ++ ", penalty = " ++ shape.name
      ++ " (mu = " ++ Decimal.Style.message.write mu ++ ")"
  | reflectionAccepted iteration f => step iteration "reflection accepted" f
  | expansionAccepted iteration f => step iteration "expansion accepted" f
  | expansionRejected iteration f => step iteration "expansion rejected" f
  | contractionAccepted iteration f => step iteration "contraction accepted" f
  | contractionRejected iteration =>
    "iteration " ++ toString iteration ++ ": contraction rejected"
  | finished iterations evaluations best =>
    "simplex finished: iters = " ++ toString iterations ++ ", fn_evals = " ++ toString evaluations
      ++ ", fmin = " ++ describeOption best

end Event

end NelderMead
