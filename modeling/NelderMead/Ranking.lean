/-!
# Ranking of values

Values are ranked from the best, which is the least, to the worst.  What is not a number ranks
behind every number, and all that are not numbers rank alike, whatever their sign.

* `rankCmp` — the comparison.
* `rankOrder` — the positions of a list of values from the best to the worst.  Positions of values
  that rank alike keep their order.
-/

namespace NelderMead

/-- How two numbers compare; nothing compares with what is not a number. -/
def compareNumbers (a b : Float) : Option Ordering :=
  if a < b then some .lt
  else if b < a then some .gt
  else if a == b then some .eq
  else none

/-- **The comparison of ranks.**  Least first, and what is not a number last. -/
def rankCmp (a b : Float) : Ordering :=
  match a.isNaN, b.isNaN with
  | true, true => .eq
  | true, false => .gt
  | false, true => .lt
  | false, false => (compareNumbers a b).getD .eq

/-- Puts a value and its position in front of the first that does not rank before it. -/
def insertRanked (v : Float × Nat) : List (Float × Nat) → List (Float × Nat)
  | [] => [v]
  | w :: ws => if rankCmp v.1 w.1 = .gt then w :: insertRanked v ws else v :: w :: ws

/-- Values with their positions, from the best to the worst.  Each is inserted into those behind
it, in front of its equals, so equals keep their order. -/
def rankedFrom : List (Float × Nat) → List (Float × Nat)
  | [] => []
  | v :: vs => insertRanked v (rankedFrom vs)

/-- **The positions of some values from the best to the worst.** -/
def rankOrder (values : List Float) : List Nat :=
  (rankedFrom values.zipIdx).map (·.2)

/-! ## Nothing is lost -/

theorem insertRanked_perm (v : Float × Nat) (ws : List (Float × Nat)) :
    (insertRanked v ws).Perm (v :: ws) := by
  induction ws with
  | nil => exact .refl _
  | cons w ws ih =>
    rw [insertRanked]
    split
    · exact (ih.cons w).trans (.swap v w ws)
    · exact .refl _

theorem rankedFrom_perm (vs : List (Float × Nat)) : (rankedFrom vs).Perm vs := by
  induction vs with
  | nil => exact .refl _
  | cons v vs ih => exact (insertRanked_perm v _).trans (ih.cons v)

/-- The order is a permutation of the positions. -/
theorem rankOrder_perm (values : List Float) :
    (rankOrder values).Perm (List.range values.length) := by
  have h := (rankedFrom_perm values.zipIdx).map (·.2)
  have hpos : values.zipIdx.map (·.2) = List.range values.length := by
    simp [List.range_eq_range']
  rw [hpos] at h
  exact h

theorem length_rankOrder (values : List Float) : (rankOrder values).length = values.length := by
  rw [(rankOrder_perm values).length_eq, List.length_range]

end NelderMead
