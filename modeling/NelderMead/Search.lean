import NelderMead.Simplex
import NelderMead.Result

/-!
# The search

Each iteration tries to replace the worst vertex of the simplex.  The worst point is reflected
through the centroid of the others.

* A reflected point that is no better than the best vertex and better than the second worst is
  taken.
* A reflected point better than the best vertex is a reason to go further the same way: the better
  of the expanded and the reflected point is taken, the reflected one on a tie.
* Otherwise the worst point is moved halfway to the centroid, and the contracted point is taken if
  it is better than the worst vertex.  If it is not, the simplex stays as it is; it is never shrunk.

All comparisons are those of numbers, so a value that is not a number is never better.

* `Move` and `Move.choose` — what an iteration decides.
* `Course.iterate` — one iteration, and `Course.iterates`, some of them.
* `Course.run` — a whole run from given points.
-/

namespace NelderMead

variable {σ : Type}

/-- How far the reflected point lies beyond the centroid. -/
def reflection : Float := 1.0

/-- How far the expanded point lies from the centroid, in distances of the reflected point. -/
def expansion : Float := 2.0

/-- How far the contracted point lies from the centroid, in distances of the worst point. -/
def contraction : Float := 0.5

/-! ## One move -/

/-- **What an iteration decides.** -/
structure Move where
  /-- The vertex that takes the slot of the worst one, if any does. -/
  newcomer : Option Vertex
  /-- The evaluations that the decision took. -/
  spent : Nat
  event : Event

/-- Evaluates the point reached from the centroid by going `k` times the way to `target`. -/
def Standing.trial (s : Standing) (p : PenaltyFunction σ) (target : Vertex) (k : Float) :
    Run σ SolverError Vertex := do
  let x ← Run.check (Point.toward s.centroid target.point k)
  Vertex.evaluate p x

/-- **The move of iteration `i`.** -/
def Move.choose (p : PenaltyFunction σ) (i : Nat) (s : Standing) : Run σ SolverError Move := do
  let reflected ← s.trial p s.worst (-reflection)
  if s.best.augmented ≤ reflected.augmented ∧ reflected.augmented < s.secondWorst.augmented then
    return ⟨some reflected, 1, .reflectionAccepted i reflected.augmented⟩
  else if reflected.augmented < s.best.augmented then
    let expanded ← s.trial p reflected expansion
    if expanded.augmented < reflected.augmented then
      return ⟨some expanded, 2, .expansionAccepted i expanded.augmented⟩
    else
      return ⟨some reflected, 2, .expansionRejected i reflected.augmented⟩
  else
    let contracted ← s.trial p s.worst contraction
    if contracted.augmented < s.worst.augmented then
      return ⟨some contracted, 2, .contractionAccepted i contracted.augmented⟩
    else
      return ⟨none, 2, .contractionRejected i⟩

/-! ## Iterations -/

/-- **The course of a run**: its state between two iterations. -/
structure Course where
  simplex : Simplex
  /-- The evaluations spent so far. -/
  evaluations : Nat
  stores : Stores

namespace Course

/-- **One iteration** in dimension `n`.  The simplex is recorded as it is before the move. -/
def iterate (p : PenaltyFunction σ) (n : Nat) : Course → Run σ SolverError Course
  | ⟨simplex, evaluations, stores⟩ => do
    let standing ← Run.check (simplex.standing n)
    let i := stores.count
    let stores ← Run.check (stores.record standing.best.sample evaluations)
    let move ← Move.choose p i standing
    Run.tell move.event
    return ⟨simplex.settle standing.worstSlot move.newcomer, evaluations + move.spent, stores⟩

/-- Some iterations, one after the other. -/
def iterates (p : PenaltyFunction σ) (n : Nat) : Nat → Course → Run σ SolverError Course
  | 0, c => return c
  | k + 1, c => do
    let c' ← iterate p n c
    iterates p n k c'

/-- The state before the first of `maxIter` iterations in dimension `n`: all points are evaluated in
order, and then the stores are set aside. -/
def first (p : PenaltyFunction σ) (n : Nat) (points : List Point) (maxIter : Nat) :
    Run σ SolverError Course := do
  let simplex ← points.mapM (Vertex.evaluate p)
  let stores ← Run.check (Stores.reserve n p.constraintCount maxIter)
  return ⟨simplex, points.length, stores⟩

/-! ## Runs -/

/-- **A run** of `maxIter` iterations in dimension `n` from the given points. -/
def run (p : PenaltyFunction σ) (n : Nat) (points : List Point) (maxIter : Nat) :
    Run σ SolverError SearchResult := do
  let c ← first p n points maxIter
  let last ← iterates p n maxIter c
  let result := SearchResult.ofStores last.evaluations last.stores
  let fmin ← Run.check result.fmin
  Run.tell (.finished result.iterations result.evaluations fmin)
  return result

end Course

end NelderMead
