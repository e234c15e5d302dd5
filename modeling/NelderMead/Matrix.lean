import NelderMead.Point

/-!
# Matrices

A matrix is a list of rows of one length.  The number of columns is kept beside the rows, so that
a matrix without rows still has a shape.

* `Matrix.ofRows` — from rows, which are checked.
* `Matrix.ofEntries` — from a row-major list of `rows * cols` entries.
* `Matrix.row`, `Matrix.apply` — one row, and the product with a point.
-/

namespace NelderMead

/-- Rows of one length. -/
structure Matrix where
  cols : Nat
  rows : List Point
  length_row : ∀ r ∈ rows, r.length = cols

namespace Matrix

/-- The number of rows. -/
def rowCount (m : Matrix) : Nat := m.rows.length

/-- Same shape and entries that compare equal; an entry that is not a number equals nothing. -/
instance : BEq Matrix where
  beq a b := a.cols == b.cols && a.rows == b.rows

/-- The matrix with the given rows, if each has `cols` entries. -/
def ofRows (cols : Nat) (rows : List Point) : Except Fault Matrix :=
  match h : rows.find? (fun r => r.length != cols) with
  | some r => .error (.lengthMismatch cols r.length)
  | none => .ok ⟨cols, rows, by simpa using h⟩

/-- Cuts a list into `rows` pieces of `cols` entries. -/
def chunks {α : Type} (cols : Nat) : Nat → List α → List (List α)
  | 0, _ => []
  | rows + 1, xs => xs.take cols :: chunks cols rows (xs.drop cols)

/-- The matrix with the given entries in row-major order; there must be `rows * cols` of them. -/
def ofEntries (rows cols : Nat) (entries : List Float) : Except Fault Matrix :=
  if entries.length = rows * cols then ofRows cols (chunks cols rows entries)
  else .error (.lengthMismatch (rows * cols) entries.length)

/-- All entries in row-major order. -/
def entries (m : Matrix) : List Float := m.rows.flatten

/-- Row `i`. -/
def row (m : Matrix) (i : Nat) : Except Fault Point := entry m.rows i

/-- The product with a point: the inner product of each row with it. -/
def apply (m : Matrix) (x : Point) : Except Fault Point :=
  m.rows.mapM (Point.dot · x)

/-! ## Shapes -/

/-- Rows of the right length make a matrix, with exactly these rows. -/
theorem ofRows_of_length {cols : Nat} {rows : List Point} (h : ∀ r ∈ rows, r.length = cols) :
    ofRows cols rows = .ok ⟨cols, rows, h⟩ := by
  have hf : rows.find? (fun r => r.length != cols) = none := by simpa using h
  unfold ofRows
  split
  · rename_i r hr
    rw [hf] at hr
    cases hr
  · rfl

end Matrix

end NelderMead
