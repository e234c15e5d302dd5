import NelderMead.Trace

/-!
# Results

* `SearchResult` — all that a run tells of itself: how many evaluations and iterations it made, and
  its trace by columns.
* `SolverOutput` — what any solver tells: the best points so far and the number of evaluations.
* `SearchResult.output` — the second as part of the first.

Both are read from their last row.  The columns are separate, so a column may turn out shorter than
the one that was counted; reading beyond its end is a fault.
-/

namespace NelderMead

/-! ## The result of a run -/

/-- **The result of a run**, with one row of each column for each iteration. -/
structure SearchResult where
  /-- Evaluations of the augmented objective, those of the first simplex included. -/
  evaluations : Nat
  iterations : Nat
  /-- The raw objective at the best vertex. -/
  f : List Float
  /-- The values of the constraints at the best vertex. -/
  g : Matrix
  /-- The best vertex. -/
  x : Matrix
  /-- The least raw objective so far. -/
  bestF : List Float
  bestG : Matrix
  bestX : Matrix
  /-- The evaluations spent before each iteration. -/
  samplesAtIteration : List Nat

namespace SearchResult

/-- The result that the stores of a run show. -/
def ofStores (evaluations : Nat) (st : Stores) : SearchResult where
  evaluations
  iterations := st.count
  f := st.current.f.toList
  g := st.current.g.toMatrix
  x := st.current.x.toMatrix
  bestF := st.best.f.toList
  bestG := st.best.g.toMatrix
  bestX := st.best.x.toMatrix
  samplesAtIteration := st.samplesAtIteration.toList

/-- Reads the last of the iterations, if there was one. -/
def atLast {α : Type} (r : SearchResult) (read : Nat → Except Fault α) :
    Except Fault (Option α) :=
  match r.iterations with
  | 0 => .ok none
  | last + 1 => some <$> read last

/-- The least objective found. -/
def fmin (r : SearchResult) : Except Fault (Option Float) := r.atLast (entry r.bestF)

/-- The point at which it was found. -/
def xmin (r : SearchResult) : Except Fault (Option Point) := r.atLast r.bestX.row

/-- The values of the constraints there. -/
def gmin (r : SearchResult) : Except Fault (Option Point) := r.atLast r.bestG.row

end SearchResult

/-! ## What any solver tells -/

/-- **The output of a solver**: the best points found so far, by columns. -/
structure SolverOutput where
  f : List Float
  g : Matrix
  x : Matrix
  evaluations : Nat
  deriving BEq

namespace SolverOutput

/-- The number of rows, by the column of objectives. -/
def length (o : SolverOutput) : Nat := o.f.length

/-- Whether there is no row. -/
def isEmpty (o : SolverOutput) : Bool := o.f.isEmpty

/-- Reads the last row, if there is one. -/
def atLast {α : Type} (o : SolverOutput) (read : Nat → Except Fault α) :
    Except Fault (Option α) :=
  match o.length with
  | 0 => .ok none
  | last + 1 => some <$> read last

/-- The least objective and its point. -/
def best (o : SolverOutput) : Except Fault (Option (Float × Point)) :=
  o.atLast fun last => do
    let f ← entry o.f last
    let x ← o.x.row last
    return (f, x)

/-- **Whether the last point is feasible** within a tolerance.  A constraint whose value is not a
number is not satisfied, and without rows there is no feasible point. -/
def isFeasible (o : SolverOutput) (tol : Float) : Except Fault Bool := do
  let g ← o.atLast o.g.row
  return match g with
    | none => false
    | some g => g.all fun gi => decide (gi ≤ tol)

end SolverOutput

/-- The part of a result that any solver tells. -/
def SearchResult.output (r : SearchResult) : SolverOutput :=
  ⟨r.bestF, r.bestG, r.bestX, r.evaluations⟩

end NelderMead
