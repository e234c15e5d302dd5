import NelderMead.Proofs.Binary64.Order

/-!
# Whole numbers and quotients

A mean is a sum divided by a whole number.  A whole number becomes a binary64 number by rounding,
which may lose digits or end at infinity, but is positive unless it is zero.

* **`zero_lt_ofNat`** — whole numbers are positive.
* `form_zero_div` — zero divided by a positive number is zero, with the positive sign.
* **`ticks_div_one`** — one divides without loss.
-/

namespace NelderMead.Binary64

open Float.Model (UnpackedFloat Format totalExponent)
open Float.Model.UnpackedFloat

/-! ## Whole numbers -/

lemma form_toFloat (k : UInt64) :
    form k.toFloat = stored (UnpackedFloat.normalize .binary64 (k.toNat : ℤ) 0 .positive) := rfl

lemma form_ofScientific (n : ℕ) (e : ℤ) : form (Float.ofModel (Float.Model.ofScientific n e)) =
    stored (UnpackedFloat.ofScientific .binary64 n e) := rfl

/-- A large whole number is rounded once. -/
lemma ofScientific_of_pos {n : ℕ} (hn : 0 < n) :
    UnpackedFloat.ofScientific .binary64 n 0 =
      roundWithAccuracy .binary64 .positive (n * 2 ^ 53) (-53) .exact := by
  have hlarge : ¬(0 : ℤ) > 2 ^ Format.binary64.exponentBits := by norm_num
  have hsmall : ¬(0 : ℤ) < -(2 ^ Format.binary64.exponentBits + (n.log2 : ℤ)) := by
    have hpow : (0 : ℤ) < 2 ^ Format.binary64.exponentBits := by positivity
    omega
  have hmantissa : n <<< 53 * 10 ^ (0 : ℤ).toNat = n * 2 ^ 53 := by
    rw [Nat.shiftLeft_eq, Int.toNat_zero, pow_zero, mul_one]
  rw [UnpackedFloat.ofScientific, dif_neg hn.ne', if_neg hlarge, if_neg hsmall, if_pos le_rfl,
    ← hmantissa]
  rfl

/-- **A whole number that is not zero** is positive as a binary64 number, if not infinite. -/
theorem zero_lt_ofNat {n : ℕ} (hn : 0 < n) :
    (Float.ofNat n).isNaN = false ∧ 0 < ticks (Float.ofNat n) := by
  have hunfold : Float.ofNat n = Float.ofScientific n false 0 := rfl
  -- rounding does not go below one, which is not rounded
  have hpos : 0 < min (roundTicks (magnitude n 0)) infinite := by
    have hmono := roundTicks_mono (Nat.mul_le_mul_right (2 ^ ((0 : ℤ) + 2148).toNat) hn)
    rw [roundTicks_of_fits (by norm_num) (by omega)] at hmono
    exact lt_min (lt_of_lt_of_le (by positivity) hmono) infinite_pos
  rw [hunfold, Float.ofScientific]
  by_cases hsmall : n < 2 ^ 53 ∧ 0 ≤ 22
  · have hword : n.toUInt64.toNat = n := by
      rw [Nat.toUInt64_eq, UInt64.toNat_ofNat']
      omega
    have hround : roundInt ((n : ℤ) * 2 ^ ((0 : ℤ) + 2148).toNat) =
        (min (roundTicks (magnitude n 0)) infinite : ℕ) := by
      rw [← roundInt_natCast, magnitude, Nat.cast_mul, Nat.cast_pow, Nat.cast_ofNat]
    obtain ⟨hnum, hticks⟩ := ticksOf_normalize (n.toUInt64.toNat : ℤ) (e := 0) (by norm_num)
    rw [← form_toFloat] at hnum hticks
    rw [hword, hround] at hticks
    obtain ⟨hnum', hticks'⟩ := ticks_mul_unit form_one (x := n.toUInt64.toFloat) hnum
    rw [dif_pos hsmall, if_neg Bool.false_ne_true]
    refine ⟨hnum', ?_⟩
    show 0 < ticks (n.toUInt64.toFloat * 1.0)
    rw [hticks', ticks, hticks, Sign.apply, one_mul]
    exact Int.natCast_pos.mpr hpos
  · have hmagnitude : magnitude (n * 2 ^ 53) (-53) = magnitude n 0 := by
      have hexponent : 53 + ((-53 : ℤ) + 2148).toNat = ((0 : ℤ) + 2148).toNat := by omega
      rw [magnitude, magnitude, mul_assoc, ← pow_add, hexponent]
    have hlast : ((-53 : ℤ) + 2148).toNat ≤ lastBit (magnitude (n * 2 ^ 53) (-53)) := by
      rw [hmagnitude, lastBit, magnitude, log2_mul_two_pow hn]
      omega
    obtain ⟨hnum, hticks⟩ := ticksOf_roundWithAccuracy .positive (m := n * 2 ^ 53) (e := -53)
      (by positivity) (by norm_num) hlast
    rw [← ofScientific_of_pos hn, ← form_ofScientific] at hnum hticks
    rw [dif_neg hsmall, if_neg Bool.false_ne_true]
    refine ⟨hnum, ?_⟩
    show 0 < ticksOf (form (Float.ofModel (Float.Model.ofScientific n 0)))
    rw [hticks, hmagnitude]
    exact Int.natCast_pos.mpr hpos

/-! ## Quotients -/

lemma form_div (x y : Float) :
    form (x / y) = stored (UnpackedFloat.div .binary64 (form x) (form y)) := rfl

lemma div_zero_finite (s t : Sign) {m : ℕ} {e : ℤ} (hpos : 0 < m) :
    UnpackedFloat.div .binary64 (.zero s) (.finite t m e hpos) = .zero (s / t) := rfl

lemma div_finite_finite (s t : Sign) {m k : ℕ} {e l : ℤ} (hm : 0 < m) (hk : 0 < k) :
    UnpackedFloat.div .binary64 (.finite s m e hm) (.finite t k l hk) =
      roundWithAccuracy .binary64 (s / t) (divCore .binary64 m e k l).1
        (divCore .binary64 m e k l).2.1 (divCore .binary64 m e k l).2.2 := rfl

/-- **Zero divided by what is positive** keeps its sign. -/
lemma form_zero_div {y : Float} (hy : y.isNaN = false) (hpos : 0 < ticks y) :
    form (0.0 / y) = .zero .positive := by
  have hzero : form 0.0 = .zero .positive := rfl
  rw [form_div, hzero]
  rw [← isNaN_form] at hy
  rw [ticks] at hpos
  generalize form y = u at *
  rcases u with s | _ | s | ⟨s, m, e, hm⟩
  · obtain rfl := infinity_positive hpos.le
    rfl
  · cases hy
  · rw [ticksOf_zero] at hpos
    omega
  · obtain rfl := finite_positive hpos.le
    rw [div_zero_finite]
    exact stored_of_canonical (u := .zero .positive) trivial

/-- A quotient by one is the dividend with `d` zeros behind it, as many as can be kept. -/
lemma exists_div_one {s : Sign} {m : ℕ} {e : ℤ} {hpos : 0 < m}
    (hu : Canonical (.finite s m e hpos)) :
    ∃ d : ℕ, -1074 ≤ e - d ∧ (e - d + 2148).toNat ≤ lastBit (magnitude m e) ∧
      UnpackedFloat.div .binary64 (.finite s m e hpos)
          (.finite .positive (2 ^ 52) (-52) significand_pos) =
        roundWithAccuracy .binary64 s (m * 2 ^ d) (e - d) .exact := by
  obtain ⟨hm, he, -, -⟩ := hu
  have hlog : m.log2 ≤ 52 := Nat.le_of_lt_succ ((Nat.log2_lt hpos.ne').mpr hm)
  obtain ⟨d, hd⟩ : ∃ d : ℕ, max (m.log2 + e - 53) (-1074) = e - d :=
    ⟨(e - max (m.log2 + e - 53) (-1074)).toNat, by omega⟩
  have hlast : lastBit (magnitude m e) = max (m.log2 + (e + 2148).toNat - 52) 1074 := by
    rw [lastBit, magnitude, log2_mul_two_pow hpos]
  refine ⟨d, by omega, by omega, ?_⟩
  have htotal : totalExponent m e - totalExponent (2 ^ 52) (-52) = m.log2 + e := by
    rw [totalExponent, totalExponent, Nat.log2_two_pow]
    omega
  have htarget : Format.binary64.targetExponent
      (totalExponent m e - totalExponent (2 ^ 52) (-52)) = e - d := by
    rw [htotal, ← hd]
    rfl
  have hshift : (e - -52 - min (e - -52) (e - (d : ℤ))).toNat = d + 52 := by omega
  have hmin : min (e - -52) (e - (d : ℤ)) = e - d := by omega
  have hcore : divCore .binary64 m e (2 ^ 52) (-52) = (m * 2 ^ d, e - d, .exact) := by
    rw [divCore, htarget, hshift, hmin, Nat.shiftLeft_eq, pow_add, ← mul_assoc,
      Nat.mul_div_cancel _ (by positivity), Nat.mul_mod_left]
    rfl
  rw [div_finite_finite, hcore]
  cases s <;> rfl

lemma ticksOf_div_one {u : UnpackedFloat} (hu : Canonical u) (hfinite : u.isFinite = true) :
    (stored (UnpackedFloat.div .binary64 u
        (.finite .positive (2 ^ 52) (-52) significand_pos))).isNaN = false ∧
      ticksOf (stored (UnpackedFloat.div .binary64 u
        (.finite .positive (2 ^ 52) (-52) significand_pos))) = ticksOf u := by
  have hround := roundInt_ticksOf hu hfinite
  rcases u with s | _ | s | ⟨s, m, e, hpos⟩
  · cases hfinite
  · cases hfinite
  · rw [div_zero_finite, ticksOf_zero]
    exact stored_zero _
  · obtain ⟨d, he, hlast, hdiv⟩ := exists_div_one hu
    have hmagnitude : magnitude (m * 2 ^ d) (e - d) = magnitude m e := by
      have hexponent : d + (e - d + 2148).toNat = (e + 2148).toNat := by omega
      rw [magnitude, magnitude, mul_assoc, ← pow_add, hexponent]
    have h := ticksOf_roundWithAccuracy s (m := m * 2 ^ d) (e := e - d) (by positivity)
      (by omega) (by rwa [hmagnitude])
    rwa [← hdiv, hmagnitude, ← roundInt_apply, ← ticksOf_finite s hpos, hround] at h

/-- **One divides without loss.** -/
theorem ticks_div_one {x : Float} (hx : x.isFinite = true) :
    (x / 1.0).isNaN = false ∧ ticks (x / 1.0) = ticks x := by
  rw [← isNaN_form, ticks, form_div, form_one]
  exact ticksOf_div_one (canonical_form x) hx

end NelderMead.Binary64
