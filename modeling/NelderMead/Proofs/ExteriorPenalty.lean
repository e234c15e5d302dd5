import NelderMead.Proofs.Binary64.Order
import NelderMead.Proofs.EntryPoints
import NelderMead.Proofs.Penalty

/-!
# The penalty grows with the violations

With a positive coefficient the penalty is an exterior one: where no constraint is violated it is
zero, it sees the violations only, and a larger value of any constraint does not make it less.  All
of this survives rounding and overflow, as sums and products of what is not negative grow with
their parts.

* `violation_mono`, `charge_mono`, `foldl_charge_mono` — one step of the sum after the other.
* `PenaltyFunction.Exterior` — what an exterior penalty is.
* **`PenaltyFunction.exterior`** — a positive coefficient gives one.
-/

namespace NelderMead

open Binary64

/-! ## Larger values, larger charges -/

section Charges

variable {g h : Float}

lemma violation_mono (hgh : g ≤ h) : violation g ≤ violation h := by
  by_cases hg : 0.0 < g
  · have hh : 0.0 < h := by
      obtain ⟨-, hnum, hle⟩ := (le_iff g h).mp hgh
      obtain ⟨hzero, -, hlt⟩ := (lt_iff _ g).mp hg
      exact (lt_iff _ h).mpr ⟨hzero, hnum, hlt.trans_le hle⟩
    rwa [violation, violation, if_pos hg, if_pos hh]
  · rw [violation, if_neg hg]
    exact zero_le_violation h

lemma charge_mono (shape : PenaltyShape) (hgh : g ≤ h) :
    shape.charge (violation g) ≤ shape.charge (violation h) := by
  have hle := violation_mono hgh
  cases shape with
  | l1 => exact hle
  | l2 =>
    have hsquare : ∀ v : Float, (violation v * violation v).isNaN = false := fun v =>
      ((zero_le_iff _).mp (zero_le_mul_self (zero_le_violation v))).1
    exact mul_le_mul_of_zero_le (zero_le_violation g) hle (zero_le_violation g) hle (hsquare g)
      (hsquare h)

end Charges

/-- **Sums of charges** grow with the values, from a larger start on. -/
lemma foldl_charge_mono (shape : PenaltyShape) {x y : Float} (hx : 0.0 ≤ x) (hxy : x ≤ y)
    {g h : Point} (hgh : List.Forall₂ (· ≤ ·) g h) :
    g.foldl (fun s gi => s + shape.charge (violation gi)) x ≤
      h.foldl (fun s gi => s + shape.charge (violation gi)) y := by
  induction hgh generalizing x y with
  | nil => exact hxy
  | cons hhead _ ih =>
    have hcharge := zero_le_charge shape
    exact ih (zero_le_add hx (hcharge _))
      (add_le_add_of_zero_le hx hxy (hcharge _) (charge_mono shape hhead))

/-! ## What the sum sees -/

/-- Two values with the same positive part. -/
def SamePositivePart (g h : Float) : Prop := g = h ∨ g ≤ 0.0 ∧ h ≤ 0.0

lemma violation_congr {g h : Float} (hgh : SamePositivePart g h) : violation g = violation h := by
  rcases hgh with rfl | ⟨hg, hh⟩
  · rfl
  · rw [violation_of_le hg, violation_of_le hh]

lemma violation_violation (g : Float) : violation (violation g) = violation g := by
  by_cases hg : 0.0 < g
  · rw [violation, violation, if_pos hg, if_pos hg]
  · rw [violation, violation, if_neg hg, ite_self]

lemma map_violation_congr {g h : Point} (hgh : List.Forall₂ SamePositivePart g h) :
    g.map violation = h.map violation := by
  induction hgh with
  | nil => rfl
  | cons hhead _ ih => rw [List.map_cons, List.map_cons, violation_congr hhead, ih]

/-! ## The penalty -/

namespace PenaltyFunction

variable {σ : Type} {p : PenaltyFunction σ}

lemma penalty_mono (hmu : 0.0 < p.mu) {g h : Point} (hgh : List.Forall₂ (· ≤ ·) g h) :
    p.penalty g ≤ p.penalty h := by
  have hnum : ∀ g : Point, (p.mu * totalCharge p.shape g).isNaN = false := fun g =>
    ((zero_le_iff _).mp (p.zero_le_penalty_of_pos hmu g)).1
  have hstart : (0.0 : Float) ≤ -0.0 := (zero_le_iff _).mpr ⟨ticks_neg_zero.1, ticks_neg_zero.2.ge⟩
  have htotal : totalCharge p.shape g ≤ totalCharge p.shape h :=
    foldl_charge_mono p.shape hstart (le_refl_float ticks_neg_zero.1) hgh
  exact mul_le_mul_of_zero_le p.zero_le_mu.2 (le_refl_float (isNaN_of_isFinite p.zero_le_mu.1))
    (zero_le_totalCharge p.shape g) htotal (hnum g) (hnum h)

/-- **The penalty sees the violations** and nothing else. -/
lemma penalty_map_violation (p : PenaltyFunction σ) (g : Point) :
    p.penalty (g.map violation) = p.penalty g := by
  simp only [penalty, totalCharge, List.foldl_map, violation_violation]

lemma penalty_congr (p : PenaltyFunction σ) {g h : Point}
    (hgh : List.Forall₂ SamePositivePart g h) : p.penalty g = p.penalty h := by
  rw [← p.penalty_map_violation g, map_violation_congr hgh, p.penalty_map_violation]

/-- Where no constraint is violated the augmented value is the objective, also if some constraint
has a value that is not a number. -/
lemma augmented_beq_objective {f : Float} {g : Point} (hf : f.isNaN = false)
    (hg : ∀ gi ∈ g, ¬0.0 < gi) : (f + p.penalty g == f) = true := by
  have hmet : ∀ v ∈ g.map violation, v ≤ 0.0 := by
    intro v hv
    obtain ⟨gi, hgi, rfl⟩ := List.mem_map.mp hv
    rw [violation, if_neg (hg gi hgi)]
    exact le_refl_float ticks_zero.1
  obtain ⟨hnum, hticks⟩ := augmented_of_feasible (p := p) hf hmet
  rw [combine, penalty_map_violation] at hnum hticks
  exact (beq_iff _ _).mpr ⟨hnum, hf, hticks⟩

/-- **One evaluation**: the objective, the constraints, and their sum. -/
lemma exec_augmentedAt_eq_ok {x : Point} {j j' : Journal σ} {a : Float} :
    (p.augmentedAt x).exec j = (.ok a, j') ↔ ∃ f g j₁, (p.objectiveAt x).exec j = (.ok f, j₁) ∧
      (p.constraintsAt x).exec j₁ = (.ok g, j') ∧ a = f + p.penalty g := by
  simp only [augmentedAt, evaluate, Run.exec_bind_eq_ok, Run.exec_pure_eq_ok]
  constructor
  · rintro ⟨_, _, ⟨f, j₁, hf, g, j₂, hg, rfl, rfl⟩, rfl, rfl⟩
    exact ⟨f, g, j₁, hf, hg, rfl⟩
  · rintro ⟨f, g, j₁, hf, hg, rfl⟩
    exact ⟨_, j', ⟨f, j₁, hf, g, j', hg, rfl, rfl⟩, rfl, rfl⟩

/-- **A monotone, exact exterior penalty.** -/
structure Exterior (p : PenaltyFunction σ) : Prop where
  /-- The penalty is a number, which is not negative. -/
  zero_le : ∀ g : Point, 0.0 ≤ p.penalty g
  /-- It grows with the values of the constraints. -/
  mono : ∀ g h : Point, List.Forall₂ (· ≤ ·) g h → p.penalty g ≤ p.penalty h
  /-- It depends on their positive parts alone. -/
  congr : ∀ g h : Point, List.Forall₂ SamePositivePart g h → p.penalty g = p.penalty h
  /-- It is zero where all constraints are met. -/
  exact : ∀ g : Point, (∀ gi ∈ g, gi ≤ 0.0) → (p.penalty g == 0.0) = true
  /-- So an augmented value is not below the objective, and is the objective where no constraint is
  violated. -/
  augmented : ∀ (x : Point) (a : Float) (j j' : Journal σ),
    (p.augmentedAt x).exec j = (.ok a, j') →
    ∃ f g j₁, (p.objectiveAt x).exec j = (.ok f, j₁) ∧
      (p.constraintsAt x).exec j₁ = (.ok g, j') ∧ a = f + p.penalty g ∧
      (f.isNaN = false → a.isNaN = false → f ≤ a) ∧
      (f.isNaN = false → (∀ gi ∈ g, ¬0.0 < gi) → (a == f) = true)

/-- **With a positive coefficient** the penalty is an exterior one, of either shape. -/
theorem exterior (p : PenaltyFunction σ) (hmu : 0.0 < p.mu) : p.Exterior where
  zero_le := p.zero_le_penalty_of_pos hmu
  mono _ _ := penalty_mono hmu
  congr _ _ := p.penalty_congr
  exact g hg := by
    obtain ⟨hnum, hzero⟩ := p.ticks_penalty_of_feasible hg
    exact (beq_iff _ _).mpr ⟨hnum, ticks_zero.1, hzero⟩
  augmented x a j j' hrun := by
    obtain ⟨f, g, j₁, hf, hg, rfl⟩ := exec_augmentedAt_eq_ok.mp hrun
    exact ⟨f, g, j₁, hf, hg, rfl, fun _ hnum => objective_le_augmented (p := p) (g := g) hnum,
      augmented_beq_objective⟩

theorem exterior_square : 0.0 < squarePenalty.mu ∧ squarePenalty.Exterior := by
  have hmu : 0.0 < squarePenalty.mu := by decide +kernel
  exact ⟨hmu, squarePenalty.exterior hmu⟩

end PenaltyFunction

end NelderMead
