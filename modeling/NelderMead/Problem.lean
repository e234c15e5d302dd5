import NelderMead.Penalty.Function

/-!
# Problems

A problem is an objective to be minimised, a point to start from, bounds that size the first
simplex, and constraints.  Whatever declares a dimension must declare that of the starting point.
All this is compared when the problem is built, before any function is evaluated.

* `Problem.of` — checks the parts and reports the first that does not fit.
* `Problem.penaltyFunction` — the problem as an objective with penalty.
-/

namespace NelderMead

/-- Whether a declared dimension, if there is one, is `n`. -/
def Agrees (n : Nat) (declared : Option Nat) : Prop := ∀ d ∈ declared, d = n

instance (n : Nat) (declared : Option Nat) : Decidable (Agrees n declared) :=
  match declared with
  | none => .isTrue fun _ h => nomatch h
  | some d => decidable_of_iff (d = n) (by simp [Agrees])

/-- **A constrained problem** whose parts are of one dimension. -/
structure Problem (σ : Type) where
  objective : BlackBox σ
  x0 : Point
  bounds : Bounds
  constraints : List (Constraint σ)
  x0_ne_nil : x0 ≠ []
  length_bounds : bounds.length = x0.length
  agrees_objective : Agrees x0.length objective.dimension
  agrees_constraint : ∀ c ∈ constraints, Agrees x0.length c.dimension

namespace Problem

variable {σ : Type}

/-! ## Building -/

/-- The first constraint that declares another dimension than `n`: its position, counted from `i`,
and the dimension. -/
def firstMismatch? (n : Nat) : Nat → List (Constraint σ) → Option (Nat × Nat)
  | _, [] => none
  | i, c :: cs =>
    match c.dimension with
    | none => firstMismatch? n (i + 1) cs
    | some d => if d = n then firstMismatch? n (i + 1) cs else some (i, d)

theorem agrees_of_firstMismatch?_eq_none {n i : Nat} {cs : List (Constraint σ)}
    (h : firstMismatch? n i cs = none) : ∀ c ∈ cs, Agrees n c.dimension := by
  induction cs generalizing i with
  | nil => simp
  | cons c cs ih =>
    intro b hb
    rw [firstMismatch?] at h
    rcases List.mem_cons.mp hb with rfl | hb
    · split at h
      · rename_i hd
        simp [Agrees, hd]
      · rename_i d hd
        split at h
        · rename_i hn
          simp [Agrees, hd, hn]
        · cases h
    · split at h
      · exact ih h b hb
      · split at h
        · exact ih h b hb
        · cases h

/-- **The problem with the given parts.**  The starting point is looked at first, then the bounds,
the objective and the constraints in order. -/
def of (objective : BlackBox σ) (x0 : Point) (bounds : Bounds) (constraints : List (Constraint σ)) :
    Except SolverError (Problem σ) :=
  let n := x0.length
  if hne : x0 = [] then .error .invalidDimension
  else if hb : bounds.length = n then
    if ho : Agrees n objective.dimension then
      match hc : firstMismatch? n 0 constraints with
      | some (i, d) => .error (.dimensionMismatch (.constraint i) n d)
      | none => .ok ⟨objective, x0, bounds, constraints, hne, hb, ho,
          agrees_of_firstMismatch?_eq_none hc⟩
    else .error (.dimensionMismatch .objective n (objective.dimension.getD n))
  else .error (.dimensionMismatch .bounds n bounds.length)

/-! ## Reading -/

/-- The dimension of the points. -/
def dimension (p : Problem σ) : Nat := p.x0.length

/-- The number of constraints. -/
def constraintCount (p : Problem σ) : Nat := p.constraints.length

theorem dimension_pos (p : Problem σ) : 0 < p.dimension :=
  List.length_pos_iff.mpr p.x0_ne_nil

/-- The objective with a penalty for violated constraints. -/
def penaltyFunction (p : Problem σ) (shape : PenaltyShape) (mu : Float) :
    Except SolverError (PenaltyFunction σ) :=
  PenaltyFunction.of p.objective p.constraints shape mu

end Problem

end NelderMead
