import Mathlib.Tactic.Linarith
import Mathlib.Tactic.Positivity
import Mathlib.Tactic.Ring

/-!
# Binary64 numbers on a grid

All finite binary64 numbers are multiples of one number.  Here a *tick* is `2 ^ (-2148)`, the least
product of two positive numbers, so that sums and products before rounding are whole numbers of
ticks as well.  Infinity counts as `2 ^ 1024`, the first magnitude that is too large.

* `Canonical` — the unpacked numbers that binary64 has; `canonical_unpack` and
  `stored_of_canonical` say that packing and unpacking pass through exactly these.
* **`isNaN_ofBits_iff`** — which bits are read as what is not a number.
* `ticksOf`, `ticks` — the value of a number in ticks.
* **`lt_iff`, `le_iff`, `beq_iff`** — the comparisons of binary64 are those of ticks, and all are
  false where a side is not a number.

With the last three, every fact about the order of numbers is linear arithmetic over `ℤ`.
-/

namespace NelderMead.Binary64

open Float.Model (UnpackedFloat Format)
open Float.Model.UnpackedFloat

/-! ## Magnitudes -/

/-- The magnitude of `m * 2 ^ e` in ticks. -/
def magnitude (m : ℕ) (e : ℤ) : ℕ := m * 2 ^ (e + 2148).toNat

/-- The magnitude of infinity in ticks, which is the first one beyond the range of exponents. -/
def infinite : ℕ := magnitude (2 ^ 52) 972

lemma magnitude_pos {m : ℕ} (hm : 0 < m) (e : ℤ) : 0 < magnitude m e := by
  unfold magnitude
  positivity

lemma infinite_pos : 0 < infinite := magnitude_pos (by positivity) 972

lemma magnitude_lt_magnitude {m₁ m₂ : ℕ} (h : m₁ < m₂) (e : ℤ) :
    magnitude m₁ e < magnitude m₂ e :=
  Nat.mul_lt_mul_of_pos_right h (by positivity)

/-- A mantissa of 53 bits is worth less than any of full width with a larger exponent. -/
lemma magnitude_lt_of_exponent_lt {m₁ m₂ : ℕ} {e₁ e₂ : ℤ} (h₁ : m₁ < 2 ^ 53) (h₂ : 2 ^ 52 ≤ m₂)
    (he₁ : -1074 ≤ e₁) (he : e₁ < e₂) : magnitude m₁ e₁ < magnitude m₂ e₂ := by
  have hpow : 0 < 2 ^ (e₁ + 2148).toNat := by positivity
  have hle : (e₁ + 2148).toNat + 1 ≤ (e₂ + 2148).toNat := by omega
  calc magnitude m₁ e₁ < 2 ^ 53 * 2 ^ (e₁ + 2148).toNat := Nat.mul_lt_mul_of_pos_right h₁ hpow
    _ = 2 ^ 52 * 2 ^ ((e₁ + 2148).toNat + 1) := by ring
    _ ≤ m₂ * 2 ^ (e₂ + 2148).toNat := Nat.mul_le_mul h₂ (Nat.pow_le_pow_right (by omega) hle)

lemma magnitude_lt_infinite {m : ℕ} {e : ℤ} (hm : m < 2 ^ 53) (he : -1074 ≤ e) (he' : e ≤ 971) :
    magnitude m e < infinite :=
  magnitude_lt_of_exponent_lt hm le_rfl he (by omega)

lemma infinite_le_magnitude {m : ℕ} {e : ℤ} (hm : 2 ^ 52 ≤ m) (he : 972 ≤ e) :
    infinite ≤ magnitude m e :=
  Nat.mul_le_mul hm (Nat.pow_le_pow_right (by omega) (by omega))

/-! ## Canonical forms -/

/-- The unpacked numbers that binary64 has.  A mantissa has its full width unless the exponent is
the least. -/
def Canonical : UnpackedFloat → Prop
  | .finite _ m e _ => m < 2 ^ 53 ∧ -1074 ≤ e ∧ e ≤ 971 ∧ (2 ^ 52 ≤ m ∨ e = -1074)
  | _ => True

lemma toNat_implicitBit (v : BitVec 52) : (1#1 ++ v).toNat = 2 ^ 52 + v.toNat := by
  rw [BitVec.toNat_append, ← Nat.shiftLeft_add_eq_or_of_lt v.isLt]
  rfl

/-- **Unpacking yields canonical forms.** -/
lemma canonical_unpack (b : BitVec Format.binary64.numBits) :
    Canonical (unpack .binary64 b) := by
  have hm : (unpackMantissa b).toNat < 2 ^ 52 := (unpackMantissa b).isLt
  have he : (unpackExponent b).toNat < 2048 := (unpackExponent b).isLt
  have hbias : (Format.binary64.exponentBias : ℤ) = 1023 := rfl
  unfold unpack
  dsimp only
  by_cases hones : unpackExponent b = -1#_
  · rw [if_pos hones]
    split_ifs <;> trivial
  · rw [if_neg hones]
    by_cases hzero : unpackExponent b = 0#_
    · rw [if_pos hzero]
      by_cases hman : unpackMantissa b = 0#_
      · rw [dif_pos hman]
        trivial
      · rw [dif_neg hman]
        have hexponent : (unpackExponent b).toNat = 0 := congrArg BitVec.toNat hzero
        refine ⟨by omega, ?_, ?_, Or.inr ?_⟩ <;> omega
    · rw [if_neg hzero]
      have hones' : (unpackExponent b).toNat ≠ 2047 := fun h => hones (BitVec.eq_of_toNat_eq h)
      have hzero' : (unpackExponent b).toNat ≠ 0 := fun h => hzero (BitVec.eq_of_toNat_eq h)
      have himplicit := toNat_implicitBit (unpackMantissa b)
      refine ⟨?_, ?_, ?_, Or.inl ?_⟩ <;> omega

lemma toNat_unpackExponent (b : BitVec Format.binary64.numBits) :
    (unpackExponent b).toNat = b.toNat / 2 ^ 52 % 2 ^ 11 := by
  rw [unpackExponent, BitVec.toNat_cast, BitVec.extractLsb_toNat, Nat.shiftRight_eq_div_pow]
  rfl

lemma toNat_unpackMantissa (b : BitVec Format.binary64.numBits) :
    (unpackMantissa b).toNat = b.toNat % 2 ^ 52 := by
  rw [unpackMantissa, BitVec.toNat_cast, BitVec.extractLsb_toNat, Nat.shiftRight_zero]
  rfl

/-- The bits of infinity. -/
def infinityBits : ℕ := 0x7ff0000000000000

/-- What is not a number is unpacked from the last exponent and some mantissa other than zero. -/
lemma isNaN_unpack (b : BitVec Format.binary64.numBits) :
    (unpack .binary64 b).isNaN = true ↔ unpackExponent b = -1#_ ∧ unpackMantissa b ≠ 0#_ := by
  unfold unpack
  dsimp only
  by_cases hones : unpackExponent b = -1#_
  · rw [if_pos hones]
    by_cases hman : unpackMantissa b = 0#_
    · rw [if_pos hman]
      exact iff_of_false Bool.false_ne_true fun h => h.2 hman
    · rw [if_neg hman]
      exact iff_of_true rfl ⟨hones, hman⟩
  · rw [if_neg hones]
    refine iff_of_false (Bool.eq_false_iff.mp ?_) fun h => hones h.1
    by_cases hzero : unpackExponent b = 0#_
    · rw [if_pos hzero]
      by_cases hman : unpackMantissa b = 0#_
      · rw [dif_pos hman]
        rfl
      · rw [dif_neg hman]
        rfl
    · rw [if_neg hzero]
      rfl

/-- Without their sign, the bits of what is not a number are above those of infinity. -/
lemma isNaN_unpack_iff (b : BitVec Format.binary64.numBits) :
    (unpack .binary64 b).isNaN = true ↔ infinityBits < b.toNat % 2 ^ 63 := by
  have hexponent : unpackExponent b = -1#_ ↔ b.toNat / 2 ^ 52 % 2 ^ 11 = 2047 := by
    rw [← BitVec.toNat_inj, toNat_unpackExponent]
    rfl
  have hmantissa : unpackMantissa b = 0#_ ↔ b.toNat % 2 ^ 52 = 0 := by
    rw [← BitVec.toNat_inj, toNat_unpackMantissa]
    rfl
  rw [isNaN_unpack, hexponent, Ne, hmantissa, infinityBits]
  omega

lemma unpackSign_packComponents (s : Sign) (e : BitVec 11) (m : BitVec 52) :
    unpackSign (packComponents .binary64 s e m) = s.toBitVec := by
  have hsign : (s.toBitVec ++ e ++ m).extractLsb' 63 1 = s.toBitVec := by
    rw [BitVec.extractLsb'_append_eq_of_le (by omega : 52 ≤ 63),
      BitVec.extractLsb'_append_eq_of_le (by omega : 11 ≤ 63 - 52), BitVec.extractLsb'_eq_self]
  exact hsign

lemma ofBitVec_toBitVec (s : Sign) : Sign.ofBitVec s.toBitVec = s := by
  cases s <;> rfl

lemma finite_congr {s s' : Sign} {m m' : ℕ} {e e' : ℤ} {hpos : 0 < m} {hpos' : 0 < m'}
    (hs : s = s') (hm : m = m') (he : e = e') :
    UnpackedFloat.finite s m e hpos = .finite s' m' e' hpos' := by
  subst hs hm he
  rfl

lemma unpack_packComponents_normal (s : Sign) {m e : ℕ} (he : 0 < e) (he' : e < 2047)
    (hm : 2 ^ 52 ≤ m) (hm' : m < 2 ^ 53) :
    unpack .binary64 (packComponents .binary64 s (BitVec.ofNat _ e) (BitVec.ofNat _ m)) =
      .finite s m (e - 1075) (by omega) := by
  have hexponent : (BitVec.ofNat 11 e).toNat = e := by
    rw [BitVec.toNat_ofNat]
    omega
  have hmantissa : (1#1 ++ BitVec.ofNat 52 m).toNat = m := by
    rw [toNat_implicitBit, BitVec.toNat_ofNat]
    omega
  have hones : BitVec.ofNat 11 e ≠ -1#11 := fun h => by
    have h' := congrArg BitVec.toNat h
    rw [hexponent] at h'
    exact he'.ne h'
  have hzero : BitVec.ofNat 11 e ≠ 0#11 := fun h => by
    have h' := congrArg BitVec.toNat h
    rw [hexponent] at h'
    exact he.ne' h'
  unfold unpack
  dsimp only
  rw [unpackExponent_packComponents, if_neg hones, if_neg hzero]
  refine finite_congr ?_ ?_ ?_
  · rw [unpackSign_packComponents, ofBitVec_toBitVec]
  · rw [unpackMantissa_packComponents, hmantissa]
  · rw [hexponent]
    rfl

lemma unpack_packComponents_subnormal (s : Sign) {m : ℕ} (hpos : 0 < m) (hm : m < 2 ^ 52) :
    unpack .binary64 (packComponents .binary64 s 0#_ (BitVec.ofNat _ m)) =
      .finite s m (-1074) hpos := by
  have hmantissa : (BitVec.ofNat 52 m).toNat = m := by
    rw [BitVec.toNat_ofNat]
    omega
  have hzero : BitVec.ofNat 52 m ≠ 0#52 := fun h => by
    have h' := congrArg BitVec.toNat h
    rw [hmantissa] at h'
    exact hpos.ne' h'
  unfold unpack
  dsimp only
  rw [unpackExponent_packComponents, if_neg (by decide), if_pos rfl,
    dif_neg (by rw [unpackMantissa_packComponents]; exact hzero)]
  refine finite_congr ?_ ?_ rfl
  · rw [unpackSign_packComponents, ofBitVec_toBitVec]
  · rw [unpackMantissa_packComponents, hmantissa]

lemma log2_of_fullWidth {m : ℕ} (hm : 2 ^ 52 ≤ m) (hm' : m < 2 ^ 53) : m.log2 = 52 :=
  (Nat.log2_eq_iff (by omega)).mpr ⟨hm, hm'⟩

lemma biasedExponent_eq (e : ℤ) :
    (e + Format.binary64.exponentBias + (52 : ℕ)).toNat = (e + 1075).toNat := by
  have hbias : (Format.binary64.exponentBias : ℤ) = 1023 := rfl
  omega

lemma pack_finite (s : Sign) {m : ℕ} {e : ℤ} (hpos : 0 < m) :
    pack .binary64 (.finite s m e hpos) =
      if 2 ^ 11 ≤ (e + Format.binary64.exponentBias + (52 : ℕ)).toNat + 1 then
        packedInfinity .binary64 s
      else if m.log2 + 1 = 53 then
        packComponents .binary64 s
          (BitVec.ofNat 11 (e + Format.binary64.exponentBias + (52 : ℕ)).toNat) (BitVec.ofNat 52 m)
      else packComponents .binary64 s 0#11 (BitVec.ofNat 52 m) := rfl

/-- What is left of an unpacked number when it is packed. -/
def stored (u : UnpackedFloat) : UnpackedFloat := unpack .binary64 (pack .binary64 u)

/-- **Packing keeps canonical forms.** -/
lemma stored_of_canonical {u : UnpackedFloat} (hu : Canonical u) : stored u = u := by
  rcases u with s | _ | s | ⟨s, m, e, hpos⟩
  · cases s <;> rfl
  · rfl
  · cases s <;> rfl
  · obtain ⟨hm', he, he', hm⟩ := hu
    rw [stored, pack_finite, biasedExponent_eq, if_neg (by omega)]
    by_cases hfull : 2 ^ 52 ≤ m
    · rw [if_pos (by rw [log2_of_fullWidth hfull hm']),
        unpack_packComponents_normal s (by omega) (by omega) hfull hm']
      exact finite_congr rfl rfl (by omega)
    · have hlog : m.log2 < 52 := (Nat.log2_lt hpos.ne').mpr (by omega)
      rw [if_neg (by omega), unpack_packComponents_subnormal s hpos (by omega)]
      exact finite_congr rfl rfl (by omega)

lemma stored_of_overflow (s : Sign) {m : ℕ} {e : ℤ} (hpos : 0 < m) (he : 972 ≤ e) :
    stored (.finite s m e hpos) = .infinity s := by
  rw [stored, pack_finite, biasedExponent_eq, if_pos (by omega)]
  cases s <;> rfl

/-! ## Values in ticks -/

/-- The value of an unpacked number in ticks.  What is not a number has no value; it is given
zero. -/
def ticksOf : UnpackedFloat → ℤ
  | .infinity s => s.apply infinite
  | .finite s m e _ => s.apply (magnitude m e)
  | _ => 0

lemma finite_bounds {s : Sign} {m : ℕ} {e : ℤ} {hpos : 0 < m}
    (h : Canonical (.finite s m e hpos)) :
    (0 : ℤ) < magnitude m e ∧ (magnitude m e : ℤ) < infinite :=
  ⟨by exact_mod_cast magnitude_pos hpos e,
    by exact_mod_cast magnitude_lt_infinite h.1 h.2.1 h.2.2.1⟩

lemma ticksOf_infinity (s : Sign) : ticksOf (.infinity s) = s.apply infinite := rfl

lemma ticksOf_zero (s : Sign) : ticksOf (.zero s) = 0 := rfl

lemma ticksOf_finite (s : Sign) {m : ℕ} {e : ℤ} (hpos : 0 < m) :
    ticksOf (.finite s m e hpos) = s.apply (magnitude m e) := rfl

lemma abs_apply (s : Sign) (k : ℕ) : |s.apply k| = k := by
  cases s with
  | negative => rw [Sign.apply, abs_neg, Nat.abs_cast]
  | positive => rw [Sign.apply, Nat.abs_cast]

lemma abs_ticksOf_finite_lt {s : Sign} {m : ℕ} {e : ℤ} {hpos : 0 < m}
    (h : Canonical (.finite s m e hpos)) : |ticksOf (.finite s m e hpos)| < infinite := by
  rw [ticksOf_finite, abs_apply]
  exact (finite_bounds h).2

lemma abs_ticksOf_lt {u : UnpackedFloat} (hu : Canonical u) (hfinite : u.isFinite = true) :
    |ticksOf u| < infinite := by
  cases u with
  | zero s =>
    rw [ticksOf_zero, abs_zero, Nat.cast_pos]
    exact infinite_pos
  | finite s m e hpos => exact abs_ticksOf_finite_lt hu
  | _ => cases hfinite

lemma abs_ticksOf_le {u : UnpackedFloat} (hu : Canonical u) : |ticksOf u| ≤ infinite := by
  have hinf : (0 : ℤ) ≤ infinite := Int.natCast_nonneg _
  rcases u with s | _ | s | ⟨s, m, e, hpos⟩
  · rw [ticksOf_infinity, abs_apply]
  · exact hinf
  · exact hinf
  · exact (abs_ticksOf_finite_lt hu).le

lemma isFinite_of_ticksOf_eq_zero {u : UnpackedFloat} (hnum : u.isNaN = false)
    (h : ticksOf u = 0) : u.isFinite = true := by
  rcases u with s | _ | s | ⟨s, m, e, hpos⟩
  · rw [ticksOf_infinity, ← abs_eq_zero, abs_apply] at h
    exact absurd h (by exact_mod_cast infinite_pos.ne')
  · cases hnum
  · rfl
  · rfl

lemma compare_magnitude {m₁ m₂ : ℕ} {e₁ e₂ : ℤ} (h₁ : m₁ < 2 ^ 53) (h₂ : m₂ < 2 ^ 53)
    (he₁ : -1074 ≤ e₁) (he₂ : -1074 ≤ e₂) (hm₁ : 2 ^ 52 ≤ m₁ ∨ e₁ = -1074)
    (hm₂ : 2 ^ 52 ≤ m₂ ∨ e₂ = -1074) :
    compare (magnitude m₁ e₁ : ℤ) (magnitude m₂ e₂) =
      (compare e₁ e₂).then (compare m₁ m₂) := by
  rcases lt_trichotomy e₁ e₂ with he | rfl | he
  · have h := magnitude_lt_of_exponent_lt h₁ (hm₂.resolve_right (by omega)) he₁ he
    rw [Int.compare_eq_lt.mpr he, Int.compare_eq_lt.mpr (by exact_mod_cast h)]
    rfl
  · rw [Int.compare_eq_eq.mpr (rfl : e₁ = e₁)]
    rcases lt_trichotomy m₁ m₂ with hm | rfl | hm
    · have h := magnitude_lt_magnitude hm e₁
      rw [Nat.compare_eq_lt.mpr hm, Int.compare_eq_lt.mpr (by exact_mod_cast h)]
      rfl
    · rw [Nat.compare_eq_eq.mpr rfl, Int.compare_eq_eq.mpr rfl]
      rfl
    · have h := magnitude_lt_magnitude hm e₁
      rw [Nat.compare_eq_gt.mpr hm, Int.compare_eq_gt.mpr (by exact_mod_cast h)]
      rfl
  · have h := magnitude_lt_of_exponent_lt h₂ (hm₁.resolve_right (by omega)) he₂ he
    rw [Int.compare_eq_gt.mpr he, Int.compare_eq_gt.mpr (by exact_mod_cast h)]
    rfl

lemma compare_neg (a b : ℤ) : compare (-a) (-b) = (compare a b).swap := by
  rw [Int.compare_swap]
  rcases lt_trichotomy a b with h | rfl | h
  · rw [Int.compare_eq_gt.mpr h, Int.compare_eq_gt.mpr (neg_lt_neg h)]
  · rw [Int.compare_eq_eq.mpr rfl, Int.compare_eq_eq.mpr rfl]
  · rw [Int.compare_eq_lt.mpr h, Int.compare_eq_lt.mpr (neg_lt_neg h)]

lemma compare_ticksOf_finite {s t : Sign} {m m' : ℕ} {e e' : ℤ} {hm : 0 < m} {hm' : 0 < m'}
    (ha : Canonical (.finite s m e hm)) (hb : Canonical (.finite t m' e' hm')) :
    some (compare (ticksOf (.finite s m e hm)) (ticksOf (.finite t m' e' hm'))) =
      UnpackedFloat.compare (.finite s m e hm) (.finite t m' e' hm') := by
  have hmagnitude := compare_magnitude ha.1 hb.1 ha.2.1 hb.2.1 ha.2.2.2 hb.2.2.2
  have hposa := (finite_bounds ha).1
  have hposb := (finite_bounds hb).1
  rw [ticksOf_finite, ticksOf_finite]
  cases s <;> cases t <;> rw [Sign.apply, Sign.apply]
  · rw [compare_neg, hmagnitude]
    rfl
  · exact congrArg some (Int.compare_eq_lt.mpr (by omega))
  · exact congrArg some (Int.compare_eq_gt.mpr (by omega))
  · rw [hmagnitude]
    rfl

lemma compare_of_lt {a b : UnpackedFloat} (hlt : ticksOf a < ticksOf b)
    (h : a.compare b = some .lt) : some (compare (ticksOf a) (ticksOf b)) = a.compare b := by
  rw [h, Int.compare_eq_lt.mpr hlt]

lemma compare_of_gt {a b : UnpackedFloat} (hgt : ticksOf b < ticksOf a)
    (h : a.compare b = some .gt) : some (compare (ticksOf a) (ticksOf b)) = a.compare b := by
  rw [h, Int.compare_eq_gt.mpr hgt]

/-- **Comparison is that of ticks** for numbers. -/
lemma compare_ticksOf {a b : UnpackedFloat} (ha : Canonical a) (hb : Canonical b)
    (hna : a.isNaN = false) (hnb : b.isNaN = false) :
    some (compare (ticksOf a) (ticksOf b)) = a.compare b := by
  have hinf : (0 : ℤ) < infinite := by exact_mod_cast infinite_pos
  rcases a with s | _ | s | ⟨s, m, e, hm⟩
  · rcases b with t | _ | t | ⟨t, m', e', hm'⟩
    · cases s <;> cases t
      · exact congrArg some (Int.compare_eq_eq.mpr rfl)
      · exact compare_of_lt (neg_lt_self hinf) rfl
      · exact compare_of_gt (neg_lt_self hinf) rfl
      · exact congrArg some (Int.compare_eq_eq.mpr rfl)
    · cases hnb
    · cases s with
      | negative => exact compare_of_lt (neg_lt_zero.mpr hinf) rfl
      | positive => exact compare_of_gt hinf rfl
    · obtain ⟨hlow, hhigh⟩ := abs_lt.mp (abs_ticksOf_finite_lt hb)
      cases s with
      | negative => exact compare_of_lt hlow rfl
      | positive => exact compare_of_gt hhigh rfl
  · cases hna
  · rcases b with t | _ | t | ⟨t, m', e', hm'⟩
    · cases t with
      | negative => exact compare_of_gt (neg_lt_zero.mpr hinf) rfl
      | positive => exact compare_of_lt hinf rfl
    · cases hnb
    · rfl
    · have hpos := (finite_bounds hb).1
      cases t with
      | negative => exact compare_of_gt (neg_lt_zero.mpr hpos) rfl
      | positive => exact compare_of_lt hpos rfl
  · rcases b with t | _ | t | ⟨t, m', e', hm'⟩
    · obtain ⟨hlow, hhigh⟩ := abs_lt.mp (abs_ticksOf_finite_lt ha)
      cases t with
      | negative => exact compare_of_gt hlow rfl
      | positive => exact compare_of_lt hhigh rfl
    · cases hnb
    · have hpos := (finite_bounds ha).1
      cases s with
      | negative => exact compare_of_lt (neg_lt_zero.mpr hpos) rfl
      | positive => exact compare_of_gt hpos rfl
    · exact compare_ticksOf_finite ha hb

/-! ## Numbers -/

/-- A number, unpacked. -/
def form (x : Float) : UnpackedFloat := x.toModel.unpack

/-- **The value of a number in ticks.** -/
def ticks (x : Float) : ℤ := ticksOf (form x)

lemma canonical_form (x : Float) : Canonical (form x) := canonical_unpack _

lemma isNaN_form (x : Float) : (form x).isNaN = x.isNaN := rfl

lemma isFinite_form (x : Float) : (form x).isFinite = x.isFinite := rfl

/-- Reading bits unpacks them. -/
lemma form_ofBits (bits : UInt64) : form (Float.ofBits bits) = unpack .binary64 bits.toBitVec :=
  stored_of_canonical (canonical_unpack _)

/-- **Bits are read as no number** if they are above those of infinity, whatever their sign is. -/
theorem isNaN_ofBits_iff (bits : UInt64) :
    (Float.ofBits bits).isNaN = true ↔ infinityBits < bits.toNat % 2 ^ 63 := by
  rw [← isNaN_form, form_ofBits]
  exact isNaN_unpack_iff _

lemma isFinite_of_ticks_eq_zero {x : Float} (hnum : x.isNaN = false) (h : ticks x = 0) :
    x.isFinite = true := by
  rw [← isNaN_form] at hnum
  exact isFinite_of_ticksOf_eq_zero hnum h

lemma isNaN_of_isFinite {x : Float} (h : x.isFinite = true) : x.isNaN = false := by
  rw [← isFinite_form] at h
  rw [← isNaN_form]
  cases hform : form x with
  | notANumber =>
    rw [hform] at h
    cases h
  | _ => rfl

lemma compare_of_isNaN {a b : UnpackedFloat} (h : a.isNaN = true ∨ b.isNaN = true) :
    a.compare b = none := by
  rcases h with h | h
  · cases a with
    | notANumber => rfl
    | _ => cases h
  · cases b with
    | notANumber => cases a <;> rfl
    | _ => cases h

lemma compare_form (x y : Float) :
    (form x).compare (form y) =
      if x.isNaN = false ∧ y.isNaN = false then some (compare (ticks x) (ticks y)) else none := by
  split_ifs with h
  · exact (compare_ticksOf (canonical_form x) (canonical_form y) h.1 h.2).symm
  · refine compare_of_isNaN ?_
    rw [isNaN_form, isNaN_form]
    revert h
    cases x.isNaN <;> cases y.isNaN <;> simp

lemma lt_iff_compare (x y : Float) : x < y ↔ ((form x).compare (form y) == some .lt) = true := by
  change decide (_ = true) = true ↔ _
  rw [decide_eq_true_iff]
  rfl

lemma le_iff_compare (x y : Float) :
    x ≤ y ↔ ((form x).compare (form y)).any (·.isLE) = true := by
  change decide (_ = true) = true ↔ _
  rw [decide_eq_true_iff]
  rfl

lemma beq_eq_compare (x y : Float) : (x == y) = ((form x).compare (form y) == some .eq) := rfl

/-- **Strict order** is that of ticks, and false where a side is not a number. -/
theorem lt_iff (x y : Float) :
    x < y ↔ x.isNaN = false ∧ y.isNaN = false ∧ ticks x < ticks y := by
  rw [lt_iff_compare, compare_form, ← and_assoc]
  split_ifs with h
  · rw [and_iff_right h, beq_iff_eq, Option.some.injEq, Int.compare_eq_lt]
  · exact iff_of_false (by simp) fun h' => h h'.1

/-- **Order** is that of ticks, and false where a side is not a number. -/
theorem le_iff (x y : Float) :
    x ≤ y ↔ x.isNaN = false ∧ y.isNaN = false ∧ ticks x ≤ ticks y := by
  rw [le_iff_compare, compare_form, ← and_assoc]
  split_ifs with h
  · rw [and_iff_right h, Option.any_some, Int.isLE_compare]
  · exact iff_of_false (by simp) fun h' => h h'.1

/-- **Equality** is that of ticks, and false where a side is not a number. -/
theorem beq_iff (x y : Float) :
    (x == y) = true ↔ x.isNaN = false ∧ y.isNaN = false ∧ ticks x = ticks y := by
  rw [beq_eq_compare, compare_form, ← and_assoc]
  split_ifs with h
  · rw [and_iff_right h, beq_iff_eq, Option.some.injEq, Int.compare_eq_eq]
  · exact iff_of_false (by simp) fun h' => h h'.1

lemma le_refl_float {x : Float} (hx : x.isNaN = false) : x ≤ x :=
  (le_iff x x).mpr ⟨hx, hx, le_rfl⟩

lemma le_trans_float {x y z : Float} (hxy : x ≤ y) (hyz : y ≤ z) : x ≤ z := by
  obtain ⟨hx, -, hle⟩ := (le_iff x y).mp hxy
  obtain ⟨-, hz, hle'⟩ := (le_iff y z).mp hyz
  exact (le_iff x z).mpr ⟨hx, hz, hle.trans hle'⟩

end NelderMead.Binary64
