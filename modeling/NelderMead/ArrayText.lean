import NelderMead.Matrix
import NelderMead.Decimal.Style

/-!
# Descriptions of vectors and matrices

A description lists the entries in brackets and then the way in which they are laid out: the shape,
the distance between neighbours along each axis, and the orders in which the entries lie side by
side.  An array of `elisionSize` entries or more leaves out the middle of an axis that is longer
than `elisionLimit`.

* `vector` — the description of a vector.
* `matrix` — the description of a matrix, one row to a line.
-/

namespace NelderMead.ArrayText

/-- The least number of entries for which something may be left out. -/
def elisionSize : Nat := 500

/-- The longest axis that is always listed in full. -/
def elisionLimit : Nat := 11

/-- Joins the texts along one axis, of an array of `size` entries.  From an axis that is too long
only the two ends are kept, which are together one shorter than the limit. -/
def axis (size : Nat) (separator : String) (items : List String) : String :=
  let count := items.length
  if size < elisionSize ∨ count ≤ elisionLimit then separator.intercalate items
  else
    let edge := elisionLimit / 2
    separator.intercalate (items.take edge ++ "..." :: items.drop (count - edge))

/-- One row of an array of `size` entries. -/
def row (size : Nat) (r : Point) : String :=
  "[" ++ axis size ", " (r.map Decimal.Style.record.write) ++ "]"

/-- A list of numbers of entries. -/
def sizes (ns : List Nat) : String :=
  "[" ++ ", ".intercalate (ns.map toString) ++ "]"

/-- The layout of an array whose entries lie side by side along both axes alike: there is at most
one row or at most one column. -/
def everyOrder : String := "CFcf (0xf)"

/-- The layout of an array whose entries lie side by side row by row only. -/
def rowOrder : String := "Cc (0x5)"

/-- What follows the entries. -/
def footer (shape strides : List Nat) (layout : String) : String :=
  ", shape=" ++ sizes shape ++ ", strides=" ++ sizes strides ++ ", layout=" ++ layout
    ++ ", const ndim=" ++ toString shape.length

/-- **The description of a vector.**  The entries of the empty vector have no distance. -/
def vector (x : Point) : String :=
  let n := x.length
  row n x ++ footer [n] [if n = 0 then 0 else 1] everyOrder

/-- **The description of a matrix.**  A matrix without entries shows no rows and has no
distances. -/
def matrix (m : Matrix) : String :=
  let rows := m.rowCount
  let size := rows * m.cols
  let body :=
    if size = 0 then "[[]]"
    else "[" ++ axis size ",\n " (m.rows.map (row size)) ++ "]"
  let strides := if size = 0 then [0, 0] else [m.cols, 1]
  let layout := if 2 ≤ rows ∧ 2 ≤ m.cols then rowOrder else everyOrder
  body ++ footer [rows, m.cols] strides layout

end NelderMead.ArrayText
