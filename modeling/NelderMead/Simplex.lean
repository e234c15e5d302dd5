import NelderMead.Ranking
import NelderMead.Trace

/-!
# The simplex

A simplex in dimension `n` is a list of `n + 1` vertices, each a point with its evaluation.  Their
order is that of storage: a vertex keeps its slot until another takes it.

* `Simplex.standing` — what one iteration reads off the simplex: the best vertex, the second worst,
  the worst with its slot, and the centroid of all but the worst.
* `Simplex.settle` — gives a slot to a new vertex.
-/

namespace NelderMead

/-- A point and what was found there. -/
structure Vertex where
  point : Point
  found : Evaluation
  deriving DecidableEq

namespace Vertex

/-- The value by which vertices are ranked. -/
def augmented (v : Vertex) : Float := v.found.augmented

/-- The vertex as a row of the trace shows it. -/
def sample (v : Vertex) : Sample := ⟨v.point, v.found.objective, v.found.constraints⟩

/-- Evaluates everything at a point. -/
def evaluate {σ : Type} (p : PenaltyFunction σ) (x : Point) : Run σ SolverError Vertex := do
  return ⟨x, ← p.evaluate x⟩

end Vertex

/-- Vertices by slot. -/
abbrev Simplex := List Vertex

/-- **What an iteration reads off a simplex.** -/
structure Standing where
  best : Vertex
  secondWorst : Vertex
  worst : Vertex
  /-- The slot of the worst vertex. -/
  worstSlot : Nat
  /-- The mean of all points but the worst, summed from the best on. -/
  centroid : Point
  deriving DecidableEq

namespace Simplex

/-- The slots from the best vertex to the worst. -/
def order (s : Simplex) : List Nat := rankOrder (s.map Vertex.augmented)

/-- The vertex of rank `i`, the best being of rank zero. -/
def ofRank (s : Simplex) (i : Nat) : Except Fault Vertex := do
  let slot ← entry s.order i
  entry s slot

/-- The vertices of the ranks below `n`. -/
def ofRanksBelow (s : Simplex) (n : Nat) : Except Fault (List Vertex) :=
  (s.order.take n).mapM (entry s)

/-- **The standing of a simplex** in dimension `n`.  In dimension one the best vertex is also the
second worst. -/
def standing (n : Nat) (s : Simplex) : Except Fault Standing := do
  let best ← s.ofRank 0
  let secondWorst ← s.ofRank (n - 1)
  let worstSlot ← entry s.order n
  let worst ← entry s worstSlot
  let others ← s.ofRanksBelow n
  let centroid ← Point.mean n (others.map Vertex.point)
  return { best, secondWorst, worst, worstSlot, centroid }

/-- Gives a slot to a vertex, if there is one to take it. -/
def settle (s : Simplex) (slot : Nat) : Option Vertex → Simplex
  | none => s
  | some v => s.set slot v

@[simp] theorem length_settle (s : Simplex) (slot : Nat) (v : Option Vertex) :
    (s.settle slot v).length = s.length := by
  cases v <;> simp [settle]

end Simplex

end NelderMead
