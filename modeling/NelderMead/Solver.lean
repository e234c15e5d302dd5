import NelderMead.Options
import NelderMead.Problem
import NelderMead.Search
import NelderMead.Random.ChaCha
import NelderMead.Random.Normal

/-!
# Solving problems

A run starts from a simplex that is sampled around the starting point of the problem or given by the
caller.  Whatever is wrong with a request is found before the generator is touched and before any
function is evaluated.

* `Problem.minimizeWith` — a run from a sampled simplex.
* `Problem.minimizeFrom` — a run from a given simplex.
* `minimizeFunction` — builds the problem first and uses the default options.
* `Solver` — options with a generator of their own, so that successive runs start from fresh
  simplexes and a seed reproduces the whole sequence.

A run from a sampled simplex is paired with the generator behind it.  That generator is known before
anything is evaluated: it depends on the request alone.
-/

namespace NelderMead

open NelderMead.Random

variable {σ : Type}

/-! ## The first simplex -/

/-- The first deviation that is not finite or is negative. -/
def firstBadSpread? (spread : Point) : Option Float := spread.find? fun s => !isFiniteNonneg s

/-- The point `x0 + spread · z`, coordinate by coordinate. -/
def displaced (x0 spread : Point) (z : List Float) : Point :=
  List.zipWith (fun (x, s) zi => x + s * zi) (x0.zip spread) z

/-- `k` points around `x0`, point by point and coordinate by coordinate.  A normal number is drawn
for every coordinate, also where the deviation is zero. -/
def sampledPoints {γ : Type} [WordSource γ] (x0 spread : Point) : Nat → γ → List Point × γ
  | 0, g => ([], g)
  | k + 1, g =>
    let (z, g) := standardNormals x0.length g
    let (points, g) := sampledPoints x0 spread k g
    (displaced x0 spread z :: points, g)

/-! ## Runs on a problem -/

namespace Problem

/-- The objective with the penalty that the options ask for.  The options are checked first and the
coefficient after them. -/
def penalized (p : Problem σ) (o : Options) : Except SolverError (PenaltyFunction σ) := do
  o.check
  p.penaltyFunction o.shape o.mu

/-- The event that a run from a sampled simplex begins with. -/
def started (p : Problem σ) (maxIter : Nat) (f : PenaltyFunction σ) : Event :=
  .started p.dimension p.constraintCount maxIter f.shape f.mu

/-- **A run from a sampled simplex**, and the generator behind it. -/
def minimizeWith {γ : Type} [WordSource γ] (p : Problem σ) (maxIter : Nat) (o : Options) (g : γ) :
    Run σ SolverError SearchResult × γ :=
  match p.penalized o with
  | .error e => (Run.fail e, g)
  | .ok f =>
    let spread := p.bounds.spread o.spreadFraction
    let start : Run σ SolverError Unit := Run.tell (p.started maxIter f)
    match firstBadSpread? spread with
    | some s => (do start; Run.fail (.invalidParameters (.spread s)), g)
    | none =>
      let (points, g) := sampledPoints p.x0 spread (p.dimension + 1) g
      (do start; Course.run f p.dimension points maxIter, g)

/-- **A run from a given simplex**, one vertex to a row.  Its shape is checked before the
options. -/
def minimizeFrom (p : Problem σ) (simplex : Matrix) (maxIter : Nat) (o : Options) :
    Run σ SolverError SearchResult := do
  let n := p.dimension
  if simplex.rowCount = n + 1 ∧ simplex.cols = n then
    let f ← Run.ofExcept (p.penalized o)
    Course.run f n simplex.rows maxIter
  else
    Run.fail (.invalidInitialSimplex (n + 1) n simplex.rowCount simplex.cols)

end Problem

/-- **Minimises a function** with the default options.  The problem is built first. -/
def minimizeFunction {γ : Type} [WordSource γ] (objective : BlackBox σ) (x0 : Point)
    (bounds : Bounds) (maxIter : Nat) (constraints : List (Constraint σ)) (g : γ) :
    Run σ SolverError SearchResult × γ :=
  match Problem.of objective x0 bounds constraints with
  | .error e => (Run.fail e, g)
  | .ok p => p.minimizeWith maxIter {} g

/-! ## Solvers -/

/-- **Options with a generator of their own.** -/
structure Solver where
  options : Options
  generator : ChaCha8

namespace Solver

/-- The name under which the solver is compared with others. -/
def name : String := "simplex"

/-- The solver with the given options.  Without a seed it takes the generator `unseeded`. -/
def of (options : Options) (unseeded : ChaCha8) : Solver :=
  ⟨options, match options.seed with
    | some seed => .ofSeed seed
    | none => unseeded⟩

/-- A run from a simplex sampled with the solver's generator, and the solver behind it. -/
def minimize (s : Solver) (p : Problem σ) (maxIter : Nat) :
    Run σ SolverError SearchResult × Solver :=
  let (run, generator) := p.minimizeWith maxIter s.options s.generator
  (run, { s with generator })

/-- A run from a given simplex.  The generator stays where it is. -/
def minimizeFrom (s : Solver) (p : Problem σ) (simplex : Matrix) (maxIter : Nat) :
    Run σ SolverError SearchResult :=
  p.minimizeFrom simplex maxIter s.options

/-- What any solver tells of a run within a budget, which here counts iterations. -/
def solve (s : Solver) (p : Problem σ) (budget : Nat) : Run σ SolverError SolverOutput × Solver :=
  let (run, s) := s.minimize p budget
  (do return (← run).output, s)

end Solver

end NelderMead
