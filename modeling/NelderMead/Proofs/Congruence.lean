import NelderMead.Proofs.Penalty
import NelderMead.Proofs.Ranking

/-!
# Arithmetic on values that rank alike

Two values of one key are the same number up to the sign of zero, or both are not numbers.  Sums and
products of such values again have one key, so a zero of either sign can be added anywhere in a sum
and no comparison of what is made of it can tell.

* `CompareAlike.of_rankKey` — values of one key compare alike.
* `rankKey_cases` — what values of one key are.
* **`rankKey_add_congr`**, **`rankKey_mul_congr`** — sums and products; `rankKey_add_zero`.
* **`PenaltyFunction.rankKey_combine_insertIdx`** — a satisfied constraint more does not change the
  key of an augmented value.
-/

namespace NelderMead

open Binary64

open Float.Model (UnpackedFloat)
open Float.Model.UnpackedFloat (Sign)

variable {x x' y y' : Float}

/-! ## Keys -/

lemma isNaN_of_rankKey (h : rankKey x = rankKey x') : x.isNaN = x'.isNaN := by
  rw [Bool.eq_iff_iff, ← not_iff_not, Bool.not_eq_true, Bool.not_eq_true, isNaN_eq_false_iff,
    isNaN_eq_false_iff, h]

/-- **Values of one key compare alike.** -/
lemma CompareAlike.of_rankKey (hx : rankKey x = rankKey x') (hy : rankKey y = rankKey y') :
    CompareAlike x y x' y' where
  lt := by rw [lt_iff_rankKey, lt_iff_rankKey, isNaN_of_rankKey hy, hx, hy]
  gt := by rw [lt_iff_rankKey, lt_iff_rankKey, isNaN_of_rankKey hx, hx, hy]
  isNaN_left := isNaN_of_rankKey hx
  isNaN_right := isNaN_of_rankKey hy

lemma rankKey_of_form (h : form x = form x') : rankKey x = rankKey x' := by
  rw [rankKey, rankKey, ← isNaN_form, ← isNaN_form, h, ticks, ticks, h]

lemma rankKey_of_ticks (hx : x.isNaN = false ∧ ticks x = ticks y) (hy : y.isNaN = false) :
    rankKey x = rankKey y := by
  rw [rankKey_of_number hx.1, rankKey_of_number hy, hx.2]

/-- A number is infinite in one of two ways, which its ticks tell. -/
lemma form_eq_of_infinity {s : Sign} (hx : form x = .infinity s) (hy : y.isNaN = false)
    (h : ticks x = ticks y) : form y = .infinity s := by
  have hinf := infinite_pos
  have hticks : ticks y = s.apply infinite := by rw [← h, ticks, hx, ticksOf_infinity]
  rcases isFinite_or_infinity (u := form y) hy with hfy | ⟨t, ht⟩
  · have hlt : |ticks y| < infinite := abs_ticksOf_lt (canonical_form y) hfy
    rw [hticks, abs_apply] at hlt
    exact absurd hlt (lt_irrefl _)
  · rw [ticks, ht, ticksOf_infinity] at hticks
    cases s <;> cases t <;> first | exact ht | (simp only [Sign.apply] at hticks; omega)

/-- **Values of one key**: both are not numbers, or both are finite with the same ticks, or they are
the same infinity. -/
lemma rankKey_cases (h : rankKey x = rankKey x') :
    (x.isNaN = true ∧ x'.isNaN = true) ∨
      (x.isFinite = true ∧ x'.isFinite = true ∧ ticks x = ticks x') ∨
      ∃ s, form x = .infinity s ∧ form x' = .infinity s := by
  have hnan := isNaN_of_rankKey h
  rcases hx : x.isNaN with _ | _
  · have hx' : x'.isNaN = false := hnan ▸ hx
    rw [rankKey_of_number hx, rankKey_of_number hx'] at h
    rcases isFinite_or_infinity (u := form x) hx with hfx | ⟨s, hs⟩
    · rcases isFinite_or_infinity (u := form x') hx' with hfx' | ⟨s, hs⟩
      · exact Or.inr (Or.inl ⟨hfx, hfx', h⟩)
      · exact Or.inr (Or.inr ⟨s, form_eq_of_infinity hs hx h.symm, hs⟩)
    · exact Or.inr (Or.inr ⟨s, hs, form_eq_of_infinity hs hx' h⟩)
  · exact Or.inl ⟨rfl, hnan ▸ hx⟩

/-! ## Sums and products -/

/-- **Sums of values of one key** have one key. -/
theorem rankKey_add_congr (hx : rankKey x = rankKey x') (hy : rankKey y = rankKey y') :
    rankKey (x + y) = rankKey (x' + y') := by
  have hnan : ∀ {a b a' b' : Float}, a.isNaN = true ∨ b.isNaN = true →
      a'.isNaN = true ∨ b'.isNaN = true → rankKey (a + b) = rankKey (a' + b') := fun h h' => by
    rw [rankKey_of_isNaN (isNaN_add h), rankKey_of_isNaN (isNaN_add h')]
  rcases rankKey_cases hx with ⟨hx, hx'⟩ | ⟨hfx, hfx', hx⟩ | ⟨s, hs, hs'⟩
  · exact hnan (Or.inl hx) (Or.inl hx')
  · rcases rankKey_cases hy with ⟨hy, hy'⟩ | ⟨hfy, hfy', hy⟩ | ⟨t, ht, ht'⟩
    · exact hnan (Or.inr hy) (Or.inr hy')
    · obtain ⟨hnum, hticks⟩ := ticks_add hfx hfy
      obtain ⟨hnum', hticks'⟩ := ticks_add hfx' hfy'
      exact rankKey_of_ticks ⟨hnum, by rw [hticks, hticks', hx, hy]⟩ hnum'
    · refine rankKey_of_form ?_
      rw [form_add, form_add, ht, ht', add_infinity_right t (a := form x) hfx,
        add_infinity_right t (a := form x') hfx']
  · rcases rankKey_cases hy with ⟨hy, hy'⟩ | ⟨hfy, hfy', hy⟩ | ⟨t, ht, ht'⟩
    · exact hnan (Or.inr hy) (Or.inr hy')
    · refine rankKey_of_form ?_
      rw [form_add, form_add, hs, hs', add_infinity_left s (b := form y) hfy,
        add_infinity_left s (b := form y') hfy']
    · refine rankKey_of_form ?_
      rw [form_add, form_add, hs, hs', ht, ht']

/-- **Multiples of values of one key** have one key. -/
theorem rankKey_mul_congr (hx : x.isFinite = true) (hy : rankKey y = rankKey y') :
    rankKey (x * y) = rankKey (x * y') := by
  rcases rankKey_cases hy with ⟨hy, hy'⟩ | ⟨hfy, hfy', hy⟩ | ⟨t, ht, ht'⟩
  · rw [rankKey_of_isNaN (isNaN_mul hy), rankKey_of_isNaN (isNaN_mul hy')]
  · obtain ⟨hnum, hticks⟩ := ticks_mul hx hfy
    obtain ⟨hnum', hticks'⟩ := ticks_mul hx hfy'
    exact rankKey_of_ticks ⟨hnum, by rw [hticks, hticks', hy]⟩ hnum'
  · refine rankKey_of_form ?_
    rw [form_mul, form_mul, ht, ht']

/-- Adding a zero does not change the key. -/
lemma rankKey_add_zero (x : Float) (hy : y.isNaN = false ∧ ticks y = 0) :
    rankKey (x + y) = rankKey x := by
  rcases hx : x.isNaN with _ | _
  · exact rankKey_of_ticks (ticks_add_zero hx hy.1 hy.2) hx
  · rw [rankKey_of_isNaN hx, rankKey_of_isNaN (isNaN_add (Or.inl hx))]

/-! ## Satisfied constraints -/

section Charges

variable (shape : PenaltyShape)

lemma rankKey_foldl_charge (h : rankKey x = rankKey x') (gs : Point) :
    rankKey (gs.foldl (fun s g => s + shape.charge (violation g)) x) =
      rankKey (gs.foldl (fun s g => s + shape.charge (violation g)) x') := by
  induction gs generalizing x x' with
  | nil => exact h
  | cons g gs ih => exact ih (rankKey_add_congr h rfl)

/-- A sum of charges with one for a satisfied constraint among them. -/
lemma rankKey_foldl_insertIdx (x : Float) {v : Float} (hv : v ≤ 0.0) (k : ℕ) (gs : Point) :
    rankKey ((gs.insertIdx k v).foldl (fun s g => s + shape.charge (violation g)) x) =
      rankKey (gs.foldl (fun s g => s + shape.charge (violation g)) x) := by
  induction k generalizing x gs with
  | zero =>
    exact rankKey_foldl_charge shape (rankKey_add_zero x (ticks_charge_of_le shape hv)) gs
  | succ k ih =>
    cases gs with
    | nil => rfl
    | cons g gs => exact ih _ gs

end Charges

/-- **A satisfied constraint more** does not change the key of an augmented value. -/
theorem PenaltyFunction.rankKey_combine_insertIdx {σ τ : Type} {p : PenaltyFunction σ}
    {p' : PenaltyFunction τ} (hshape : p'.shape = p.shape) (hmu : p'.mu = p.mu) (f : Float)
    {v : Float} (hv : v ≤ 0.0) (k : ℕ) (g : Point) :
    rankKey (p'.combine f (g.insertIdx k v)).augmented = rankKey (p.combine f g).augmented := by
  have hcharge := rankKey_foldl_insertIdx p.shape (-0.0) hv k g
  show rankKey (f + p'.mu * totalCharge p'.shape _) = rankKey (f + p.mu * totalCharge p.shape _)
  rw [hshape, hmu]
  exact rankKey_add_congr rfl (rankKey_mul_congr p.zero_le_mu.1 hcharge)

end NelderMead
