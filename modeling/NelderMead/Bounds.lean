import NelderMead.Error
import NelderMead.Point

/-!
# Bounds

Bounds are a box: a finite lower and a finite upper limit for each coordinate, in order.  The search
uses the widths of the box to size its first simplex and may leave the box afterwards.

* `Bounds.ofLimits` — checks two vectors of limits and reports the first thing that is wrong.
* `Bounds.width`, `Bounds.spread` — the widths, and a fraction of them.
* `Bounds.contains` — whether a point lies in the box.
* `Bounds.text` — the box in words.
-/

namespace NelderMead

/-- Finite limits, the lower not above the upper. -/
def isInterval (lower upper : Float) : Bool :=
  lower.isFinite && upper.isFinite && !decide (upper < lower)

/-- A box of dimension at least one. -/
structure Bounds where
  lower : Point
  upper : Point
  length_upper : upper.length = lower.length
  lower_ne_nil : lower ≠ []
  isInterval_of_mem : ∀ p ∈ lower.zip upper, isInterval p.1 p.2 = true

namespace Bounds

/-! ## Building -/

/-- The first pair that is no interval, with its position counted from `i`. -/
def firstBad? (i : Nat) : List (Float × Float) → Option (Nat × Float × Float)
  | [] => none
  | (l, u) :: rest => if isInterval l u then firstBad? (i + 1) rest else some (i, l, u)

theorem isInterval_of_firstBad?_eq_none {ps : List (Float × Float)} {i : Nat}
    (h : firstBad? i ps = none) : ∀ p ∈ ps, isInterval p.1 p.2 = true := by
  induction ps generalizing i with
  | nil => simp
  | cons p rest ih =>
    obtain ⟨l, u⟩ := p
    rw [firstBad?] at h
    split at h
    · rename_i hp
      intro q hq
      rcases List.mem_cons.mp hq with rfl | hq
      · exact hp
      · exact ih h q hq
    · cases h

/-- **The box with the given limits.**  Lengths are compared first, then emptiness, then the pairs
from the first on. -/
def ofLimits (lower upper : Point) : Except SolverError Bounds :=
  if hlen : upper.length = lower.length then
    if hne : lower = [] then .error .invalidDimension
    else
      match hbad : firstBad? 0 (lower.zip upper) with
      | some (i, l, u) => .error (.invalidBounds i l u)
      | none => .ok ⟨lower, upper, hlen, hne, isInterval_of_firstBad?_eq_none hbad⟩
  else .error (.dimensionMismatch .upperBounds lower.length upper.length)

/-- The box with one pair of limits for each coordinate. -/
def ofPairs (pairs : List (Float × Float)) : Except SolverError Bounds :=
  ofLimits (pairs.map (·.1)) (pairs.map (·.2))

/-! ## Reading -/

/-- The dimension. -/
def length (b : Bounds) : Nat := b.lower.length

/-- No box is empty. -/
def isEmpty (b : Bounds) : Bool := b.lower.isEmpty

/-- The widths. -/
def width (b : Bounds) : Point := List.zipWith (· - ·) b.upper b.lower

/-- A fraction of each width: how far the first simplex spreads in each coordinate. -/
def spread (b : Bounds) (fraction : Float) : Point := b.width.map (· * fraction)

/-- Whether a point has the dimension of the box and lies in it, the boundary included. -/
def contains (b : Bounds) (x : Point) : Bool :=
  x.length == b.length &&
    (x.zip (b.lower.zip b.upper)).all fun (xi, l, u) => decide (l ≤ xi) && decide (xi ≤ u)

/-- The box in words: the pairs of limits in brackets. -/
def text (b : Bounds) : String :=
  let pair (l u : Float) : String :=
    "[" ++ Decimal.Style.message.write l ++ ", " ++ Decimal.Style.message.write u ++ "]"
  "[" ++ ", ".intercalate (List.zipWith pair b.lower b.upper) ++ "]"

theorem length_width (b : Bounds) : b.width.length = b.length := by
  simp [width, length, b.length_upper]

theorem length_spread (b : Bounds) (fraction : Float) : (b.spread fraction).length = b.length := by
  simp [spread, length_width]

end Bounds

end NelderMead
