import NelderMead.Bounds
import NelderMead.Proofs.Binary64.Arithmetic

/-!
# Numbers that size and weigh

The coefficient of the penalty, the fraction of the widths and the deviations of the first simplex
all have to be finite and not negative.  Of the deviations only the first is ever in question: no
width of a box is negative, and neither is a fraction of it.

* `isFiniteNonneg_iff` — the rule for such numbers.
* `Bounds.zero_le_width`, `Bounds.zero_le_spread` — widths and deviations are not negative.
* **`Bounds.isFiniteNonneg_spread`** — a deviation is good if it is finite.
-/

namespace NelderMead

open Binary64

/-- The numbers that size or weigh things are the finite ones that are not negative. -/
lemma isFiniteNonneg_iff (x : Float) : isFiniteNonneg x = true ↔ x.isFinite = true ∧ 0.0 ≤ x := by
  rw [isFiniteNonneg, Bool.and_eq_true, Bool.not_eq_true', decide_eq_false_iff_not]
  refine and_congr_right fun hfinite => ?_
  have hnum := isNaN_of_isFinite hfinite
  rw [lt_iff, zero_le_iff, and_iff_right hnum, and_iff_right hnum, ticks_zero.2,
    and_iff_right ticks_zero.1, not_lt]

namespace Bounds

variable {b : Bounds} {fraction s : Float}

/-- The length of an interval may overflow, but it is not negative. -/
lemma zero_le_sub {l u : Float} (h : isInterval l u = true) : 0.0 ≤ u - l := by
  rw [isInterval, Bool.and_eq_true, Bool.and_eq_true, Bool.not_eq_true',
    decide_eq_false_iff_not] at h
  obtain ⟨⟨hl, hu⟩, hle⟩ := h
  rw [lt_iff, and_iff_right (isNaN_of_isFinite hu), and_iff_right (isNaN_of_isFinite hl),
    not_lt] at hle
  obtain ⟨hnum, hticks⟩ := ticks_sub hu hl
  refine (zero_le_iff _).mpr ⟨hnum, ?_⟩
  rw [hticks]
  exact roundInt_nonneg (sub_nonneg.mpr hle)

/-- **No width is negative.** -/
lemma zero_le_width (h : s ∈ b.width) : 0.0 ≤ s := by
  rw [width, List.zipWith_comm, ← List.map_uncurry_zip_eq_zipWith] at h
  obtain ⟨pair, hpair, rfl⟩ := List.mem_map.mp h
  exact zero_le_sub (b.isInterval_of_mem pair hpair)

/-- No deviation is negative. -/
lemma zero_le_spread (hfraction : isFiniteNonneg fraction = true) (h : s ∈ b.spread fraction) :
    s.isNaN = true ∨ 0.0 ≤ s := by
  obtain ⟨width, hwidth, rfl⟩ := List.mem_map.mp h
  exact zero_le_mul (zero_le_width hwidth) ((isFiniteNonneg_iff fraction).mp hfraction).2

/-- **A deviation is good if it is finite.** -/
theorem isFiniteNonneg_spread (hfraction : isFiniteNonneg fraction = true)
    (h : s ∈ b.spread fraction) : isFiniteNonneg s = true ↔ s.isFinite = true := by
  rw [isFiniteNonneg_iff]
  refine and_iff_left_of_imp fun hfinite => (zero_le_spread hfraction h).resolve_left ?_
  rw [isNaN_of_isFinite hfinite]
  exact Bool.false_ne_true

end Bounds

end NelderMead
