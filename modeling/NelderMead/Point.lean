import NelderMead.Outcome

/-!
# Points and their arithmetic

A point is a list of binary64 coordinates.  All arithmetic is that of the machine, so the order of
the operations is part of each definition: nothing is reassociated and nothing is fused.

* `Point.dot` — the inner product.  Products are summed in eight lanes, then the lanes are joined
  in pairs, then the products that fill no whole group of eight are added in order.
* `Point.toward` — the point reached from `c` by going `k` times the way to `t`.
* `Point.mean` — the mean of some points, summed in the order given.

The operations on two points check that the lengths agree and report a `Fault` otherwise.
-/

namespace NelderMead

/-- A point, or any other vector of numbers. -/
abbrev Point := List Float

namespace Point

/-- The origin of dimension `n`. -/
def zeros (n : Nat) : Point := List.replicate n 0.0

/-- `r`, if `x` and `y` have one length. -/
def matching {α : Type} (x y : Point) (r : α) : Except Fault α :=
  if x.length = y.length then .ok r else .error (.lengthMismatch x.length y.length)

/-! ## The inner product -/

/-- Eight running sums. -/
structure Lanes where
  s0 : Float := 0.0
  s1 : Float := 0.0
  s2 : Float := 0.0
  s3 : Float := 0.0
  s4 : Float := 0.0
  s5 : Float := 0.0
  s6 : Float := 0.0
  s7 : Float := 0.0

/-- Joins the lanes: lane `j` with lane `j + 4`, and the four pairs from zero on. -/
def Lanes.total (l : Lanes) : Float :=
  0.0 + (l.s0 + l.s4) + (l.s1 + l.s5) + (l.s2 + l.s6) + (l.s3 + l.s7)

/-- **Summing in lanes.**  Entry `8 k + j` goes to lane `j` while eight entries remain; the entries
left over are added to the joined lanes one by one. -/
def laneSum (l : Lanes) : List Float → Float
  | p0 :: p1 :: p2 :: p3 :: p4 :: p5 :: p6 :: p7 :: ps =>
    laneSum ⟨l.s0 + p0, l.s1 + p1, l.s2 + p2, l.s3 + p3,
      l.s4 + p4, l.s5 + p5, l.s6 + p6, l.s7 + p7⟩ ps
  | ps => ps.foldl (· + ·) l.total

/-- The inner product of two points of one length. -/
def dot (x y : Point) : Except Fault Float :=
  matching x y (laneSum {} (List.zipWith (· * ·) x y))

/-! ## Moving and averaging -/

/-- The coordinatewise sum. -/
def add (x y : Point) : Except Fault Point :=
  matching x y (List.zipWith (· + ·) x y)

/-- **Going from `c` towards `t`.**  Each coordinate is `c + (t - c) * k`; with `k` negative the
point lies on the far side of `c`. -/
def toward (c t : Point) (k : Float) : Except Fault Point :=
  matching c t (List.zipWith (fun ci ti => ci + (ti - ci) * k) c t)

/-- The coordinatewise sum of some points, from the origin of dimension `n` on. -/
def sum (n : Nat) (ps : List Point) : Except Fault Point :=
  ps.foldlM add (zeros n)

/-- The mean of some points of dimension `n`: their sum, divided by their number. -/
def mean (n : Nat) (ps : List Point) : Except Fault Point := do
  let total ← sum n ps
  return total.map (· / Float.ofNat ps.length)

/-! ## Lengths -/

theorem matching_of_eq {α : Type} {x y : Point} (r : α) (h : x.length = y.length) :
    matching x y r = .ok r := by
  simp [matching, h]

theorem length_zeros (n : Nat) : (zeros n).length = n := by
  simp [zeros]

end Point

end NelderMead
