import NelderMead.Penalty.Function

/-!
# The trace of a run

A run records one row for each iteration, before the iteration changes anything: the best vertex of
the simplex, the best point seen in any row so far, and how many evaluations were spent.

The best point so far is the one with the least raw objective.  It moves only to a strictly lower
one, so a tie keeps the earlier point, and a value that is not a number never takes its place.  The
values of the constraints play no part.

All rows are there from the beginning, filled with zeros, and are overwritten in order.  Objectives,
constraints and points are kept apart, so what belongs to one row is written to several stores, and
a best point that stays is copied from the row before.  What does not fit is a fault: a row behind
the last one, a point of another length, more rows than a machine can address.

* `Sample` — a point with what was found there.
* `Trace.Fits` — whether there is room for all rows.
* `Table` — rows of numbers; `Table.assign` and `Table.carry` overwrite one.
* `Columns` — the stores that show samples; `Columns.write`, `Columns.carry` and `Columns.improve`
  overwrite one row of each.
* `Stores`, `Stores.reserve`, **`Stores.record`** — all stores of a run.
-/

namespace NelderMead

/-- A point and the values of objective and constraints at it. -/
structure Sample where
  point : Point
  objective : Float
  constraints : Point
  deriving DecidableEq

/-! ## Room -/

namespace Trace

/-- The most entries of a column: at eight bytes each, all of them have addresses below `2 ^ 63`. -/
def maxEntries : Nat := 0xfffffffffffffff

/-- The number of entries of the widest column of `rows` rows, for points of dimension `n` and
values of `m` constraints.  A column of objectives has one entry a row. -/
def widestColumn (n m rows : Nat) : Nat := rows * max 1 (max n m)

/-- Whether there is room for `rows` rows. -/
def Fits (n m rows : Nat) : Prop := widestColumn n m rows ≤ maxEntries

instance (n m rows : Nat) : Decidable (Fits n m rows) := inferInstanceAs (Decidable (_ ≤ _))

/-- Where there is room for some rows, there is room for fewer. -/
theorem Fits.mono {n m rows fewer : Nat} (h : Fits n m rows) (hle : fewer ≤ rows) :
    Fits n m fewer :=
  Nat.le_trans (Nat.mul_le_mul_right _ hle) h

end Trace

/-! ## Tables -/

/-- **A table of numbers** whose rows are all there from the beginning. -/
structure Table where
  cols : Nat
  rows : Array Point
  length_row : ∀ r ∈ rows, r.length = cols

namespace Table

/-- The table of zeros. -/
def zeros (rows cols : Nat) : Table where
  cols
  rows := Array.replicate rows (List.replicate cols 0.0)
  length_row r hr := by rw [(Array.mem_replicate.mp hr).2, List.length_replicate]

/-- What a row of `cols` entries shows after values are assigned to it.  There have to be as many
values as entries, or one value for all of them. -/
def fitted (cols : Nat) (values : Point) : Except Fault { r : Point // r.length = cols } :=
  if h : values.length = cols then .ok ⟨values, h⟩
  else match values with
    | [v] => .ok ⟨List.replicate cols v, List.length_replicate⟩
    | _ => .error (.lengthMismatch cols values.length)

/-- **Assigns values to row `i`.** -/
def assign : Table → Nat → Point → Except Fault Table
  | ⟨cols, rows, length_row⟩, i, values =>
    if h : i < rows.size then
      (fitted cols values).map fun r => ⟨cols, rows.set i r.1, fun _ hs =>
        (Array.mem_or_eq_of_mem_set hs).elim (length_row _) (· ▸ r.2)⟩
    else .error (.outOfRange i rows.size)

/-- Assigns row `i` to the row behind it. -/
def carry (t : Table) (i : Nat) : Except Fault Table := do
  let r ← cell t.rows i
  t.assign (i + 1) r

/-- The table as a matrix. -/
def toMatrix (t : Table) : Matrix :=
  ⟨t.cols, t.rows.toList, fun r hr => t.length_row r (Array.mem_toList_iff.mp hr)⟩

end Table

/-! ## Columns -/

/-- **Stores that show samples**, one to a row: the objectives, the values of the constraints and the
points. -/
structure Columns where
  f : Array Float
  g : Table
  x : Table

namespace Columns

/-- Columns of zeros, for points of dimension `n` and values of `m` constraints. -/
def zeros (n m rows : Nat) : Columns :=
  ⟨Array.replicate rows 0.0, Table.zeros rows m, Table.zeros rows n⟩

/-- Writes a sample to row `i`. -/
def write : Columns → Nat → Sample → Except Fault Columns
  | ⟨f, g, x⟩, i, y => do
    let f ← put f i y.objective
    let g ← g.assign i y.constraints
    let x ← x.assign i y.point
    return ⟨f, g, x⟩

/-- Copies row `i` to the row behind it. -/
def carry : Columns → Nat → Except Fault Columns
  | ⟨f, g, x⟩, i => do
    let g ← g.carry i
    let x ← x.carry i
    let least ← cell f i
    let f ← put f (i + 1) least
    return ⟨f, g, x⟩

/-- **Writes the better of a sample and the row before** to row `i`.  At the first row there is none
before. -/
def improve (c : Columns) : Nat → Sample → Except Fault Columns
  | 0, y => c.write 0 y
  | i + 1, y => do
    let least ← cell c.f i
    if y.objective < least then c.write (i + 1) y else c.carry i

end Columns

/-! ## Stores -/

/-- **The stores of a run.** -/
structure Stores where
  /-- How many rows are written. -/
  count : Nat
  /-- The best vertex of the simplex. -/
  current : Columns
  /-- The best sample of this and all earlier rows. -/
  best : Columns
  /-- The evaluations spent before the iteration. -/
  samplesAtIteration : Array Nat

namespace Stores

/-- **The stores of `rows` rows**, none of them written yet. -/
def reserve (n m rows : Nat) : Except Fault Stores :=
  if Trace.Fits n m rows then
    .ok ⟨0, Columns.zeros n m rows, Columns.zeros n m rows, Array.replicate rows 0⟩
  else .error (.tooManyEntries (Trace.widestColumn n m rows))

/-- **Records a sample** in the next row. -/
def record : Stores → Sample → Nat → Except Fault Stores
  | ⟨count, current, best, samplesAtIteration⟩, y, evaluations => do
    let current ← current.write count y
    let best ← best.improve count y
    let samplesAtIteration ← put samplesAtIteration count evaluations
    return ⟨count + 1, current, best, samplesAtIteration⟩

end Stores

end NelderMead
