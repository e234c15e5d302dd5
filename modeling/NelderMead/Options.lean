import NelderMead.Error
import NelderMead.Penalty.Shape

/-!
# Options of a run

* `Options` — the shape and the coefficient of the penalty, the size of the first simplex, and a
  seed for solvers that own a generator.
* `Options.check` — what a run requires of its options before it looks at anything else.
-/

namespace NelderMead

/-- **The options of a run.** -/
structure Options where
  shape : PenaltyShape := .l2
  /-- The coefficient of the penalty. -/
  mu : Float := 100.0
  /-- The deviation of the first simplex as a fraction of each width of the bounds. -/
  spreadFraction : Float := 0.1
  /-- The seed of a solver's generator; without one the generator is whatever the caller gives. -/
  seed : Option UInt64 := none
  deriving BEq

namespace Options

/-- The fraction of the widths has to be finite and not negative. -/
def check (o : Options) : Except SolverError Unit :=
  if isFiniteNonneg o.spreadFraction then .ok ()
  else .error (.invalidParameters (.spreadFraction o.spreadFraction))

/-- The options in words. -/
def text (o : Options) : String :=
  let seed := match o.seed with
    | none => "None"
    | some s => "Some(" ++ toString s ++ ")"
  "SimplexOptions \x7b penalty: " ++ o.shape.label ++ ", mu: "
    ++ Decimal.Style.record.write o.mu ++ ", spread_fraction: "
    ++ Decimal.Style.record.write o.spreadFraction ++ ", seed: " ++ seed ++ " \x7d"

end Options

end NelderMead
