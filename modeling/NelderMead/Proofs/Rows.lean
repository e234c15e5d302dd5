import NelderMead.Search

/-!
# Searches by rows

What a run records is read most easily by rows: each shows a sample, the best one so far, and a count
of evaluations.  A search by rows keeps them in a list that grows, where a run overwrites stores that
have been there from the beginning.  Otherwise it does the same.

`Course.exec_eq_search` says that a run is a search by rows, and `Course.Visits.exists_search` and
`Search.Visits.exists_course` that the two are in the same states all along, so all that is shown of
searches by rows holds of runs.

* `Row`, `Trace` — rows, with the better of two samples; `Trace.record` appends one.
* `SearchResult.ofTrace` — the result that rows show.
* `Search`, `Search.iterate`, `search` — a search by rows.
-/

namespace NelderMead

variable {σ : Type}

/-! ## Rows -/

/-- One row of a trace. -/
structure Row where
  /-- The best vertex of the simplex. -/
  current : Sample
  /-- The best sample of this and all earlier rows. -/
  best : Sample
  /-- The evaluations spent before the iteration. -/
  evaluations : Nat
  deriving DecidableEq

/-- The rows recorded so far, the earliest first. -/
structure Trace where
  rows : Array Row := #[]
  deriving DecidableEq

namespace Trace

/-- The empty trace, if there is room for `rows` rows. -/
def reserve (n m rows : Nat) : Except Fault Trace :=
  if Fits n m rows then .ok {} else .error (.tooManyEntries (widestColumn n m rows))

theorem reserve_of_fits {n m rows : Nat} (h : Fits n m rows) : reserve n m rows = .ok {} :=
  if_pos h

theorem reserve_eq_ok_iff {n m rows : Nat} {t : Trace} :
    reserve n m rows = .ok t ↔ Fits n m rows ∧ t = {} := by
  unfold reserve
  split <;> simp_all [eq_comm]

/-- The number of rows. -/
def size (t : Trace) : Nat := t.rows.size

/-- The better of the best sample so far, if there is one, and a new sample. -/
def better : Option Row → Sample → Sample
  | none, s => s
  | some r, s => if s.objective < r.best.objective then s else r.best

/-- **Appends a row** for the sample `s`. -/
def record (t : Trace) (s : Sample) (evaluations : Nat) : Trace :=
  ⟨t.rows.push ⟨s, better t.rows.back? s, evaluations⟩⟩

/-- Changing samples does not change which is better, if their objectives stay. -/
theorem better_map (f : Sample → Sample) (g : Row → Row)
    (hf : ∀ y, (f y).objective = y.objective) (hg : ∀ r, (g r).best = f r.best)
    (row : Option Row) (y : Sample) : better (row.map g) (f y) = f (better row y) := by
  cases row with
  | none => rfl
  | some r =>
    rw [Option.map_some, better, better, hf, hg, hf]
    split <;> rfl

theorem toList_rows_record (t : Trace) (s : Sample) (evaluations : Nat) :
    (t.record s evaluations).rows.toList =
      t.rows.toList ++ [⟨s, better t.rows.back? s, evaluations⟩] :=
  Array.toList_push

/-- A record adds one row. -/
@[simp] theorem size_record (t : Trace) (s : Sample) (evaluations : Nat) :
    (t.record s evaluations).size = t.size + 1 := by
  simp [record, size]

end Trace

/-- The columns of a trace of points of dimension `n` and values of `m` constraints. -/
def SearchResult.ofTrace (n m : Nat) (evaluations : Nat) (t : Trace) : Except Fault SearchResult := do
  let rows := t.rows.toList
  let g ← Matrix.ofRows m (rows.map (·.current.constraints))
  let x ← Matrix.ofRows n (rows.map (·.current.point))
  let bestG ← Matrix.ofRows m (rows.map (·.best.constraints))
  let bestX ← Matrix.ofRows n (rows.map (·.best.point))
  return {
    evaluations, g, x, bestG, bestX
    iterations := rows.length
    f := rows.map (·.current.objective)
    bestF := rows.map (·.best.objective)
    samplesAtIteration := rows.map (·.evaluations) }

/-! ## Searches -/

/-- **The state of a search by rows** between two iterations. -/
structure Search where
  simplex : Simplex
  /-- The evaluations spent so far. -/
  evaluations : Nat
  trace : Trace

namespace Search

/-- **One iteration** in dimension `n`.  The row it records shows the simplex before the move. -/
def iterate (p : PenaltyFunction σ) (n : Nat) (s : Search) : Run σ SolverError Search := do
  let standing ← Run.check (s.simplex.standing n)
  let move ← Move.choose p s.trace.size standing
  Run.tell move.event
  return {
    simplex := s.simplex.settle standing.worstSlot move.newcomer
    evaluations := s.evaluations + move.spent
    trace := s.trace.record standing.best.sample s.evaluations }

/-- Some iterations, one after the other. -/
def iterates (p : PenaltyFunction σ) (n : Nat) : Nat → Search → Run σ SolverError Search
  | 0, s => return s
  | k + 1, s => do
    let s' ← iterate p n s
    iterates p n k s'

/-- The state before the first of `maxIter` iterations in dimension `n`: all points are evaluated in
order, and then there has to be room for the rows. -/
def first (p : PenaltyFunction σ) (n : Nat) (points : List Point) (maxIter : Nat) :
    Run σ SolverError Search := do
  let simplex ← points.mapM (Vertex.evaluate p)
  let trace ← Run.check (Trace.reserve n p.constraintCount maxIter)
  return { simplex, evaluations := points.length, trace }

end Search

/-- **A search by rows** of `maxIter` iterations in dimension `n` from the given points. -/
def search (p : PenaltyFunction σ) (n : Nat) (points : List Point) (maxIter : Nat) :
    Run σ SolverError SearchResult := do
  let s ← Search.first p n points maxIter
  let last ← Search.iterates p n maxIter s
  let result ← Run.check
    (SearchResult.ofTrace n p.constraintCount last.evaluations last.trace)
  let fmin ← Run.check result.fmin
  Run.tell (.finished result.iterations result.evaluations fmin)
  return result

end NelderMead
