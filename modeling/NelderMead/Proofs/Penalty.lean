import NelderMead.Penalty.Function
import NelderMead.Proofs.Parameters

/-!
# The penalty is a penalty

Charges are summed in binary64, where a sum may overflow and a product may not be a number.  What
the search needs of the penalty holds all the same.

* `zero_le_penalty` — a penalty is not negative, if it is a number;
  **`zero_le_penalty_of_pos`** says that it is one if the coefficient is positive.
* **`objective_le_augmented`** — no augmented value that is a number is below its objective.
* **`augmented_of_feasible`** — where no constraint is violated, the augmented value is the
  objective.
-/

namespace NelderMead

open Binary64

variable {σ : Type} {p : PenaltyFunction σ}

/-! ## Charges -/

lemma zero_le_violation (g : Float) : 0.0 ≤ violation g := by
  rw [violation]
  split_ifs with h
  · obtain ⟨-, hg, hlt⟩ := (lt_iff _ _).mp h
    rw [ticks_zero.2] at hlt
    exact (zero_le_iff g).mpr ⟨hg, hlt.le⟩
  · exact (zero_le_iff _).mpr ⟨ticks_zero.1, ticks_zero.2.ge⟩

lemma violation_of_le {g : Float} (h : g ≤ 0.0) : violation g = 0.0 := by
  refine if_neg fun hlt => ?_
  have hle := ((le_iff _ _).mp h).2.2
  have hgt := ((lt_iff _ _).mp hlt).2.2
  omega

lemma zero_le_charge (shape : PenaltyShape) (g : Float) : 0.0 ≤ shape.charge (violation g) := by
  cases shape with
  | l1 => exact zero_le_violation g
  | l2 => exact zero_le_mul_self (zero_le_violation g)

lemma ticks_charge_of_le (shape : PenaltyShape) {g : Float} (h : g ≤ 0.0) :
    (shape.charge (violation g)).isNaN = false ∧ ticks (shape.charge (violation g)) = 0 := by
  rw [violation_of_le h]
  cases shape with
  | l1 => exact ticks_zero
  | l2 =>
    have hfinite := isFinite_of_ticks_eq_zero ticks_zero.1 ticks_zero.2
    exact ticks_mul_zero hfinite ticks_zero.1 ticks_zero.2

/-! ## Their sum -/

lemma zero_le_foldl_charge (shape : PenaltyShape) {x : Float} (hx : 0.0 ≤ x) (gs : Point) :
    0.0 ≤ gs.foldl (fun s gi => s + shape.charge (violation gi)) x := by
  induction gs generalizing x with
  | nil => exact hx
  | cons g gs ih => exact ih (zero_le_add hx (zero_le_charge shape g))

/-- A sum of zeros, from a zero on. -/
lemma ticks_foldl_charge (shape : PenaltyShape) {x : Float} (hx : x.isNaN = false ∧ ticks x = 0)
    {gs : Point} (h : ∀ g ∈ gs, g ≤ 0.0) :
    (gs.foldl (fun s gi => s + shape.charge (violation gi)) x).isNaN = false ∧
      ticks (gs.foldl (fun s gi => s + shape.charge (violation gi)) x) = 0 := by
  induction gs generalizing x with
  | nil => exact hx
  | cons g gs ih =>
    obtain ⟨hg, hgs⟩ := List.forall_mem_cons.mp h
    obtain ⟨hnum, hzero⟩ := ticks_charge_of_le shape hg
    obtain ⟨hsum, hticks⟩ := ticks_add_zero hx.1 hnum hzero
    exact ih ⟨hsum, hticks.trans hx.2⟩ hgs

namespace PenaltyFunction

lemma zero_le_mu (p : PenaltyFunction σ) : p.mu.isFinite = true ∧ 0.0 ≤ p.mu :=
  (isFiniteNonneg_iff p.mu).mp p.isFiniteNonneg_mu

/-- **The sum of all charges is a number**, which is not negative. -/
lemma zero_le_totalCharge (shape : PenaltyShape) (g : Point) : 0.0 ≤ totalCharge shape g :=
  zero_le_foldl_charge shape ((zero_le_iff _).mpr ⟨ticks_neg_zero.1, ticks_neg_zero.2.ge⟩) g

lemma zero_le_penalty (p : PenaltyFunction σ) (g : Point) :
    (p.penalty g).isNaN = true ∨ 0.0 ≤ p.penalty g :=
  zero_le_mul p.zero_le_mu.2 (zero_le_totalCharge p.shape g)

/-- **With a positive coefficient the penalty is a number.**  Without one it is none where the
charges add up to infinity. -/
theorem zero_le_penalty_of_pos (p : PenaltyFunction σ) (hmu : 0.0 < p.mu) (g : Point) :
    0.0 ≤ p.penalty g :=
  zero_le_mul_of_pos p.zero_le_mu.1 hmu (zero_le_totalCharge p.shape g)

/-- Where no constraint is violated there is no penalty. -/
lemma ticks_penalty_of_feasible (p : PenaltyFunction σ) {g : Point} (h : ∀ gi ∈ g, gi ≤ 0.0) :
    (p.penalty g).isNaN = false ∧ ticks (p.penalty g) = 0 := by
  obtain ⟨hnum, hzero⟩ := ticks_foldl_charge p.shape ticks_neg_zero h
  exact ticks_mul_zero p.zero_le_mu.1 hnum hzero

/-! ## Augmented values -/

/-- **No augmented value is below its objective.** -/
theorem objective_le_augmented {f : Float} {g : Point}
    (h : (p.combine f g).augmented.isNaN = false) : f ≤ (p.combine f g).augmented := by
  have hsum : ¬(f.isNaN = true ∨ (p.penalty g).isNaN = true) := by
    intro hnan
    exact Bool.false_ne_true (h.symm.trans (isNaN_add hnan))
  have hf : f.isNaN = false := Bool.eq_false_of_not_eq_true fun hf => hsum (Or.inl hf)
  have hp : 0.0 ≤ p.penalty g := (p.zero_le_penalty g).resolve_left fun hp => hsum (Or.inr hp)
  exact le_add_of_zero_le hf hp h

/-- **Where no constraint is violated** the augmented value is the objective. -/
theorem augmented_of_feasible {f : Float} {g : Point} (hf : f.isNaN = false)
    (hg : ∀ gi ∈ g, gi ≤ 0.0) :
    (p.combine f g).augmented.isNaN = false ∧ ticks (p.combine f g).augmented = ticks f := by
  obtain ⟨hnum, hzero⟩ := p.ticks_penalty_of_feasible hg
  exact ticks_add_zero hf hnum hzero

end PenaltyFunction

end NelderMead
