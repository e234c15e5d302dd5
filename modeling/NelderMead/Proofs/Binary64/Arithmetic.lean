import NelderMead.Proofs.Binary64.Rounding

/-!
# Sums, differences and products of binary64

* **`ticks_add`**, `ticks_sub` — a sum of finite numbers is the exact sum, rounded and cut off at
  infinity, and so is a difference.
* **`ticks_mul`** — a product of finite numbers is the exact product, rounded in the same way.
* **`ticks_add_zero`, `ticks_mul_zero`** — a zero as a summand and as a factor.
* **`le_add_of_zero_le`** — adding what is not negative does not make a number less.
* **`zero_le_add`, `zero_le_mul`** — sums of what is not negative are not negative, and neither are
  products, if they are numbers.
* **`isNaN_add`, `isNaN_mul`** — what is not a number stays so; **`isNaN_add_iff`** and
  **`isNaN_mul_eq_false`** tell which sums and products of numbers are not numbers.
-/

namespace NelderMead.Binary64

open Float.Model (UnpackedFloat Format)
open Float.Model.UnpackedFloat

/-! ## Rounding with a sign -/

/-- A signed number of ticks, rounded and cut off at infinity. -/
def roundInt (z : ℤ) : ℤ := z.sign * (min (roundTicks z.natAbs) infinite : ℕ)

lemma roundInt_zero : roundInt 0 = 0 := by
  rw [roundInt, Int.sign_zero, zero_mul]

lemma rounded_zero (t : ℕ) : rounded 0 t = 0 := by
  have h := rounded_exact 0 t
  rwa [zero_mul] at h

lemma roundTicks_zero : roundTicks 0 = 0 := by
  rw [roundTicks, rounded_zero, zero_mul]

lemma roundInt_natCast (k : ℕ) : roundInt k = (min (roundTicks k) infinite : ℕ) := by
  rcases Nat.eq_zero_or_pos k with rfl | hk
  · rw [Nat.cast_zero, roundInt_zero, roundTicks_zero, Nat.zero_min, Nat.cast_zero]
  · rw [roundInt, Int.sign_natCast_of_ne_zero hk.ne', one_mul, Int.natAbs_natCast]

lemma roundInt_neg (z : ℤ) : roundInt (-z) = -roundInt z := by
  rw [roundInt, roundInt, Int.sign_neg, Int.natAbs_neg, neg_mul]

lemma roundInt_apply (s : Sign) (k : ℕ) :
    roundInt (s.apply k) = s.apply (min (roundTicks k) infinite : ℕ) := by
  cases s with
  | negative => rw [Sign.apply, roundInt_neg, roundInt_natCast, Sign.apply]
  | positive => exact roundInt_natCast k

/-- **Rounding is monotone**, whatever the signs. -/
theorem roundInt_mono {y z : ℤ} (h : y ≤ z) : roundInt y ≤ roundInt z := by
  have hnat : ∀ {a b : ℕ}, a ≤ b → roundInt a ≤ roundInt b := by
    intro a b hab
    rw [roundInt_natCast, roundInt_natCast]
    exact_mod_cast min_le_min_right _ (roundTicks_mono hab)
  have hnonneg : ∀ a : ℕ, 0 ≤ roundInt a := by
    intro a
    rw [roundInt_natCast]
    positivity
  obtain ⟨a, rfl | rfl⟩ := y.eq_nat_or_neg <;> obtain ⟨b, rfl | rfl⟩ := z.eq_nat_or_neg
  · exact hnat (by exact_mod_cast h)
  · have ha : a = 0 := by omega
    have hb : b = 0 := by omega
    rw [ha, hb, Nat.cast_zero, neg_zero]
  · rw [roundInt_neg]
    exact (neg_nonpos.mpr (hnonneg a)).trans (hnonneg b)
  · rw [roundInt_neg, roundInt_neg]
    exact neg_le_neg (hnat (by omega))

lemma roundInt_ticksOf {u : UnpackedFloat} (hu : Canonical u) (hfinite : u.isFinite = true) :
    roundInt (ticksOf u) = ticksOf u := by
  rcases u with s | _ | s | ⟨s, m, e, hpos⟩
  · cases hfinite
  · cases hfinite
  · exact roundInt_zero
  · obtain ⟨hm, he, he', -⟩ := hu
    have hbound := (magnitude_lt_infinite hm he he').le
    have hfits : roundTicks (magnitude m e) = magnitude m e := roundTicks_of_fits hm (by omega)
    rw [ticksOf_finite, roundInt_apply, hfits, min_eq_left hbound]

/-! ## Sums -/

lemma form_add (x y : Float) :
    form (x + y) = stored (UnpackedFloat.add .binary64 (form x) (form y)) := rfl

lemma ticksOf_normalize (m : ℤ) {e : ℤ} (he : -2148 ≤ e) :
    (stored (UnpackedFloat.normalize .binary64 m e .positive)).isNaN = false ∧
      ticksOf (stored (UnpackedFloat.normalize .binary64 m e .positive)) =
        roundInt (m * 2 ^ (e + 2148).toNat) := by
  have hpow : ∀ k : ℕ, ((magnitude k e : ℕ) : ℤ) = k * 2 ^ (e + 2148).toNat := by
    intro k
    rw [magnitude]
    push_cast
    rfl
  rcases lt_trichotomy m 0 with h | rfl | h
  · obtain ⟨k, hk⟩ := Int.eq_ofNat_of_zero_le (neg_nonneg.mpr h.le)
    have hround := ticksOf_round .negative (m := k) (by omega) he
    rw [← roundInt_apply, Sign.apply, hpow, ← neg_mul, ← hk, neg_neg] at hround
    rw [UnpackedFloat.normalize, Int.compare_eq_lt.mpr h, hk]
    exact hround
  · rw [zero_mul, roundInt_zero, UnpackedFloat.normalize, Int.compare_eq_eq.mpr rfl]
    dsimp only
    rw [stored_of_canonical (by trivial)]
    exact ⟨rfl, rfl⟩
  · obtain ⟨k, rfl⟩ := Int.eq_ofNat_of_zero_le h.le
    have hround := ticksOf_round .positive (m := k) (by omega) he
    rw [← roundInt_apply, Sign.apply, hpow] at hround
    rw [UnpackedFloat.normalize, Int.compare_eq_gt.mpr h]
    exact hround

lemma apply_decreaseExponent (s : Sign) (m : ℕ) {e e' : ℤ} (he : -2148 ≤ e') (hle : e' ≤ e) :
    s.apply (decreaseExponent m e e').1 * 2 ^ (e' + 2148).toNat = s.apply (magnitude m e) := by
  have hexponent : (e - e').toNat + (e' + 2148).toNat = (e + 2148).toNat := by omega
  have hmagnitude : (decreaseExponent m e e').1 * 2 ^ (e' + 2148).toNat = magnitude m e := by
    rw [decreaseExponent, Nat.shiftLeft_eq, mul_assoc, ← pow_add, hexponent, magnitude]
  rw [← hmagnitude]
  cases s <;> simp only [Sign.apply] <;> push_cast <;> ring

/-- A zero is not added to a number that is not zero. -/
lemma add_zero_finite (s t : Sign) {m : ℕ} {e : ℤ} (hpos : 0 < m) :
    UnpackedFloat.add .binary64 (.zero s) (.finite t m e hpos) = .finite t m e hpos ∧
      UnpackedFloat.add .binary64 (.finite t m e hpos) (.zero s) = .finite t m e hpos :=
  ⟨rfl, rfl⟩

lemma ticksOf_add {a b : UnpackedFloat} (ha : Canonical a) (hb : Canonical b)
    (hfa : a.isFinite = true) (hfb : b.isFinite = true) :
    (stored (UnpackedFloat.add .binary64 a b)).isNaN = false ∧
      ticksOf (stored (UnpackedFloat.add .binary64 a b)) = roundInt (ticksOf a + ticksOf b) := by
  have hra := roundInt_ticksOf ha hfa
  have hrb := roundInt_ticksOf hb hfb
  rcases a with s | _ | s | ⟨s, m, e, hpos⟩
  · cases hfa
  · cases hfa
  · rcases b with t | _ | t | ⟨t, m', e', hpos'⟩
    · cases hfb
    · cases hfb
    · cases s <;> cases t <;> exact ⟨rfl, roundInt_zero.symm⟩
    · rw [(add_zero_finite s t hpos').1, stored_of_canonical hb, ticksOf_zero, zero_add, hrb]
      exact ⟨rfl, rfl⟩
  · rcases b with t | _ | t | ⟨t, m', e', hpos'⟩
    · cases hfb
    · cases hfb
    · rw [(add_zero_finite t s hpos).2, stored_of_canonical ha, ticksOf_zero, add_zero, hra]
      exact ⟨rfl, rfl⟩
    · have hmin : -2148 ≤ min e e' := by
        have he := ha.2.1
        have he' := hb.2.1
        omega
      have h := ticksOf_normalize (s.apply (decreaseExponent m e (min e e')).1 +
        t.apply (decreaseExponent m' e' (min e e')).1) hmin
      rw [add_mul, apply_decreaseExponent s m hmin (min_le_left _ _),
        apply_decreaseExponent t m' hmin (min_le_right _ _)] at h
      exact h

/-- **A sum of finite numbers** is the exact sum, rounded and cut off at infinity. -/
theorem ticks_add {x y : Float} (hx : x.isFinite = true) (hy : y.isFinite = true) :
    (x + y).isNaN = false ∧ ticks (x + y) = roundInt (ticks x + ticks y) :=
  ticksOf_add (canonical_form x) (canonical_form y) hx hy

lemma add_infinity_left (s : Sign) {b : UnpackedFloat} (hb : b.isFinite = true) :
    UnpackedFloat.add .binary64 (.infinity s) b = .infinity s := by
  cases b with
  | zero t => rfl
  | finite t m e hpos => rfl
  | _ => cases hb

lemma add_infinity_right (s : Sign) {a : UnpackedFloat} (ha : a.isFinite = true) :
    UnpackedFloat.add .binary64 a (.infinity s) = .infinity s := by
  cases a with
  | zero t => rfl
  | finite t m e hpos => rfl
  | _ => cases ha

lemma isFinite_or_infinity {u : UnpackedFloat} (hu : u.isNaN = false) :
    u.isFinite = true ∨ ∃ s, u = .infinity s := by
  cases u with
  | notANumber => cases hu
  | infinity s => exact Or.inr ⟨s, rfl⟩
  | _ => exact Or.inl rfl

/-- **Adding a zero** changes no value. -/
theorem ticks_add_zero {x y : Float} (hx : x.isNaN = false) (hy : y.isNaN = false)
    (hzero : ticks y = 0) : (x + y).isNaN = false ∧ ticks (x + y) = ticks x := by
  have hfy := isFinite_of_ticks_eq_zero hy hzero
  rcases isFinite_or_infinity (u := form x) hx with hfx | ⟨s, hs⟩
  · have h := ticks_add (x := x) (y := y) hfx hfy
    have hround := roundInt_ticksOf (canonical_form x) hfx
    rwa [hzero, add_zero, ticks, ticks, hround] at h
  · rw [← isNaN_form, ticks, ticks, form_add, hs, add_infinity_left s (b := form y) hfy,
      stored_of_canonical (by trivial)]
    exact ⟨rfl, rfl⟩

lemma ticksOf_le_add {a b : UnpackedFloat} (ha : Canonical a) (hb : Canonical b)
    (hna : a.isNaN = false) (hnb : b.isNaN = false) (hnonneg : 0 ≤ ticksOf b)
    (hsum : (stored (UnpackedFloat.add .binary64 a b)).isNaN = false) :
    ticksOf a ≤ ticksOf (stored (UnpackedFloat.add .binary64 a b)) := by
  have hinf := infinite_pos
  rcases isFinite_or_infinity hna with hfa | ⟨s, rfl⟩
  · rcases isFinite_or_infinity hnb with hfb | ⟨t, rfl⟩
    · have hmono := roundInt_mono (le_add_of_nonneg_right hnonneg : ticksOf a ≤ _)
      rwa [roundInt_ticksOf ha hfa, ← (ticksOf_add ha hb hfa hfb).2] at hmono
    · rw [add_infinity_right t hfa, stored_of_canonical (by trivial)]
      cases t with
      | negative =>
        rw [ticksOf_infinity, Sign.apply] at hnonneg
        omega
      | positive => exact (abs_le.mp (abs_ticksOf_le ha)).2
  · cases s with
    | negative => exact (abs_le.mp (abs_ticksOf_le (canonical_unpack _))).1
    | positive =>
      rcases isFinite_or_infinity hnb with hfb | ⟨t, rfl⟩
      · rw [add_infinity_left _ hfb, stored_of_canonical (by trivial)]
      · cases t with
        | negative => cases hsum
        | positive => exact le_of_eq rfl

/-- **Adding what is not negative** does not make a number less. -/
theorem le_add_of_zero_le {x y : Float} (hx : x.isNaN = false) (hy : 0.0 ≤ y)
    (hsum : (x + y).isNaN = false) : x ≤ x + y := by
  obtain ⟨-, hny, hticks⟩ := (le_iff _ _).mp hy
  exact (le_iff _ _).mpr
    ⟨hx, hsum, ticksOf_le_add (canonical_form x) (canonical_form y) hx hny hticks hsum⟩

/-! ## Differences -/

lemma form_sub (x y : Float) :
    form (x - y) = stored (UnpackedFloat.sub .binary64 (form x) (form y)) := rfl

lemma apply_neg (s : Sign) (z : ℤ) : (-s).apply z = -s.apply z := by
  cases s with
  | negative => exact (neg_neg z).symm
  | positive => rfl

lemma sub_eq_add_neg (a b : UnpackedFloat) :
    UnpackedFloat.sub .binary64 a b = UnpackedFloat.add .binary64 a b.neg := by
  cases a with
  | finite s m e hm =>
    cases b with
    | finite t m' e' hm' =>
      show UnpackedFloat.normalize _ (s.apply _ - t.apply _) (min e e') .positive =
        UnpackedFloat.normalize _ (s.apply _ + (-t).apply _) (min e e') .positive
      rw [apply_neg, ← Int.sub_eq_add_neg]
    | _ => rfl
  | _ => cases b <;> rfl

lemma canonical_neg {u : UnpackedFloat} (hu : Canonical u) : Canonical u.neg := by
  cases u with
  | finite s m e hm => exact hu
  | _ => trivial

lemma isFinite_neg (u : UnpackedFloat) : u.neg.isFinite = u.isFinite := by
  cases u <;> rfl

lemma ticksOf_neg (u : UnpackedFloat) : ticksOf u.neg = -ticksOf u := by
  cases u with
  | finite s m e hm => exact apply_neg s _
  | infinity s => exact apply_neg s _
  | _ => rfl

/-- **A difference of finite numbers** is the exact difference, rounded and cut off at infinity. -/
theorem ticks_sub {x y : Float} (hx : x.isFinite = true) (hy : y.isFinite = true) :
    (x - y).isNaN = false ∧ ticks (x - y) = roundInt (ticks x - ticks y) := by
  have hfinite : (form y).neg.isFinite = true := (isFinite_neg (form y)).trans hy
  have h := ticksOf_add (canonical_form x) (canonical_neg (canonical_form y)) hx hfinite
  rwa [← sub_eq_add_neg, ← form_sub, ticksOf_neg, ← Int.sub_eq_add_neg] at h

/-! ## Products -/

/-- One, in ticks. -/
def unit : ℕ := magnitude 1 0

lemma unit_pos : 0 < unit := magnitude_pos one_pos 0

lemma form_mul (x y : Float) :
    form (x * y) = stored (UnpackedFloat.mul .binary64 (form x) (form y)) := rfl

/-- The exponent of an exact product is not above that of the last bit that is kept. -/
lemma exponent_mul_le {s t : Sign} {m m' : ℕ} {e e' : ℤ} {hm : 0 < m} {hm' : 0 < m'}
    (ha : Canonical (.finite s m e hm)) (hb : Canonical (.finite t m' e' hm')) :
    (e + e' + 2148).toNat ≤ lastBit (magnitude (m * m') (e + e')) := by
  have hpos : 0 < m * m' := Nat.mul_pos hm hm'
  rw [lastBit, magnitude, log2_mul_two_pow hpos]
  by_cases hwide : 2 ^ 52 ≤ m * m'
  · have hlog := (Nat.le_log2 hpos.ne').mpr hwide
    omega
  · have hme : e = -1074 := ha.2.2.2.resolve_left fun h =>
      hwide (h.trans (Nat.le_mul_of_pos_right m hm'))
    have hme' : e' = -1074 := hb.2.2.2.resolve_left fun h =>
      hwide (h.trans (Nat.le_mul_of_pos_left m' hm))
    omega

lemma magnitude_mul_magnitude {m m' : ℕ} {e e' : ℤ} (he : -1074 ≤ e) (he' : -1074 ≤ e') :
    magnitude m e * magnitude m' e' = magnitude (m * m') (e + e') * unit := by
  have hexponent : (e + 2148).toNat + (e' + 2148).toNat =
      (e + e' + 2148).toNat + ((0 : ℤ) + 2148).toNat := by omega
  rw [unit, magnitude, magnitude, magnitude, magnitude, mul_mul_mul_comm, one_mul,
    mul_assoc (m * m'), ← pow_add, ← pow_add, hexponent]

lemma apply_mul_apply (s t : Sign) (k l : ℕ) :
    s.apply k * t.apply l = (s * t).apply (k * l : ℕ) := by
  cases s <;> cases t <;> simp only [Sign.apply, Nat.cast_mul, neg_mul, mul_neg, neg_neg]

lemma apply_ediv (s : Sign) (k : ℕ) {d : ℕ} (hd : 0 < d) : s.apply (k * d : ℕ) / d = s.apply k := by
  have hd' : (d : ℤ) ≠ 0 := by exact_mod_cast hd.ne'
  cases s with
  | negative => rw [Sign.apply, Nat.cast_mul, ← neg_mul, Int.mul_ediv_cancel _ hd', Sign.apply]
  | positive => rw [Sign.apply, Nat.cast_mul, Int.mul_ediv_cancel _ hd', Sign.apply]

lemma stored_zero (s : Sign) :
    (stored (.zero s)).isNaN = false ∧ ticksOf (stored (.zero s)) = 0 := by
  rw [stored_of_canonical (by trivial)]
  exact ⟨rfl, rfl⟩

lemma ticksOf_mul {a b : UnpackedFloat} (ha : Canonical a) (hb : Canonical b)
    (hfa : a.isFinite = true) (hfb : b.isFinite = true) :
    (stored (UnpackedFloat.mul .binary64 a b)).isNaN = false ∧
      ticksOf (stored (UnpackedFloat.mul .binary64 a b)) =
        roundInt (ticksOf a * ticksOf b / unit) := by
  rcases a with s | _ | s | ⟨s, m, e, hpos⟩
  · cases hfa
  · cases hfa
  · rw [ticksOf_zero, zero_mul, Int.zero_ediv, roundInt_zero]
    rcases b with t | _ | t | ⟨t, m', e', hpos'⟩
    · cases hfb
    · cases hfb
    · exact stored_zero (s * t)
    · exact stored_zero (s * t)
  · rcases b with t | _ | t | ⟨t, m', e', hpos'⟩
    · cases hfb
    · cases hfb
    · rw [ticksOf_zero, mul_zero, Int.zero_ediv, roundInt_zero]
      exact stored_zero (s * t)
    · have h := ticksOf_roundWithAccuracy (s * t) (Nat.mul_pos hpos hpos')
        (by linarith [ha.2.1, hb.2.1]) (exponent_mul_le ha hb)
      rw [ticksOf_finite, ticksOf_finite, apply_mul_apply, magnitude_mul_magnitude ha.2.1 hb.2.1,
        apply_ediv _ _ unit_pos, roundInt_apply]
      exact h

/-- **A product of finite numbers** is the exact product, rounded and cut off at infinity. -/
theorem ticks_mul {x y : Float} (hx : x.isFinite = true) (hy : y.isFinite = true) :
    (x * y).isNaN = false ∧ ticks (x * y) = roundInt (ticks x * ticks y / unit) :=
  ticksOf_mul (canonical_form x) (canonical_form y) hx hy

lemma roundInt_nonneg {z : ℤ} (h : 0 ≤ z) : 0 ≤ roundInt z := by
  have hmono := roundInt_mono h
  rwa [roundInt_zero] at hmono

lemma infinity_positive {s : Sign} (h : 0 ≤ ticksOf (.infinity s)) : s = .positive := by
  have hinf := infinite_pos
  cases s with
  | negative =>
    rw [ticksOf_infinity, Sign.apply] at h
    omega
  | positive => rfl

lemma finite_positive {s : Sign} {m : ℕ} {e : ℤ} {hpos : 0 < m}
    (h : 0 ≤ ticksOf (.finite s m e hpos)) : s = .positive := by
  have hmagnitude := magnitude_pos hpos e
  cases s with
  | negative =>
    rw [ticksOf_finite, Sign.apply] at h
    omega
  | positive => rfl

lemma isNaN_stored_notANumber : (stored .notANumber).isNaN = true := by
  rw [stored_of_canonical (by trivial)]
  rfl

lemma stored_infinity_nonneg : 0 ≤ ticksOf (stored (.infinity .positive)) := by
  rw [stored_of_canonical (by trivial)]
  exact Int.natCast_nonneg infinite

lemma ticksOf_mul_nonneg {a b : UnpackedFloat} (ha : Canonical a) (hb : Canonical b)
    (hna : a.isNaN = false) (hnb : b.isNaN = false) (hpa : 0 ≤ ticksOf a) (hpb : 0 ≤ ticksOf b) :
    (stored (UnpackedFloat.mul .binary64 a b)).isNaN = true ∨
      0 ≤ ticksOf (stored (UnpackedFloat.mul .binary64 a b)) := by
  rcases isFinite_or_infinity hna with hfa | ⟨s, rfl⟩
  · rcases isFinite_or_infinity hnb with hfb | ⟨t, rfl⟩
    · right
      rw [(ticksOf_mul ha hb hfa hfb).2]
      exact roundInt_nonneg (Int.ediv_nonneg (mul_nonneg hpa hpb) (by positivity))
    · obtain rfl := infinity_positive hpb
      rcases a with s | _ | s | ⟨s, m, e, hpos⟩
      · cases hfa
      · cases hfa
      · exact Or.inl isNaN_stored_notANumber
      · obtain rfl := finite_positive hpa
        exact Or.inr stored_infinity_nonneg
  · obtain rfl := infinity_positive hpa
    rcases b with t | _ | t | ⟨t, m, e, hpos⟩
    · obtain rfl := infinity_positive hpb
      exact Or.inr stored_infinity_nonneg
    · cases hnb
    · exact Or.inl isNaN_stored_notANumber
    · obtain rfl := finite_positive hpb
      exact Or.inr stored_infinity_nonneg

lemma ticks_zero : (0.0 : Float).isNaN = false ∧ ticks 0.0 = 0 := ⟨rfl, rfl⟩

lemma ticks_neg_zero : (-0.0 : Float).isNaN = false ∧ ticks (-0.0) = 0 := ⟨rfl, rfl⟩

lemma zero_le_iff (x : Float) : 0.0 ≤ x ↔ x.isNaN = false ∧ 0 ≤ ticks x := by
  rw [le_iff, ticks_zero.2, and_iff_right ticks_zero.1]

/-- **A product of what is not negative** is not negative, or not a number. -/
theorem zero_le_mul {x y : Float} (hx : 0.0 ≤ x) (hy : 0.0 ≤ y) :
    (x * y).isNaN = true ∨ 0.0 ≤ x * y := by
  obtain ⟨hnx, hpx⟩ := (zero_le_iff x).mp hx
  obtain ⟨hny, hpy⟩ := (zero_le_iff y).mp hy
  have h := ticksOf_mul_nonneg (canonical_form x) (canonical_form y) hnx hny hpx hpy
  rw [zero_le_iff]
  rcases hnan : (x * y).isNaN with _ | _
  · exact Or.inr ⟨rfl, h.resolve_left (by rw [← form_mul, isNaN_form, hnan]; simp)⟩
  · exact Or.inl rfl

lemma ne_infinity_of_isFinite {u : UnpackedFloat} (h : u.isFinite = true) (s : Sign) :
    u ≠ .infinity s := by
  rintro rfl
  cases h

lemma isNaN_stored_infinity (s : Sign) : (stored (.infinity s)).isNaN = false := by
  rw [stored_of_canonical (by trivial)]
  rfl

/-- Infinities of one sign have a sum. -/
lemma isNaN_add_infinity (s t : Sign) :
    (stored (UnpackedFloat.add .binary64 (.infinity s) (.infinity t))).isNaN = true ↔ t = -s := by
  cases s <;> cases t
  · exact iff_of_false Bool.false_ne_true (nomatch ·)
  · exact iff_of_true isNaN_stored_notANumber rfl
  · exact iff_of_true isNaN_stored_notANumber rfl
  · exact iff_of_false Bool.false_ne_true (nomatch ·)

/-- **A sum of numbers is a number**, unless they are infinite with opposite signs. -/
theorem isNaN_add_iff {x y : Float} (hx : x.isNaN = false) (hy : y.isNaN = false) :
    (x + y).isNaN = true ↔ ∃ s, form x = .infinity s ∧ form y = .infinity (-s) := by
  have hform : (x + y).isNaN = (stored (UnpackedFloat.add .binary64 (form x) (form y))).isNaN := rfl
  rw [hform]
  rcases isFinite_or_infinity (u := form x) hx with hfx | ⟨s, hs⟩
  · refine iff_of_false ?_ fun ⟨s, h, _⟩ => ne_infinity_of_isFinite hfx s h
    rcases isFinite_or_infinity (u := form y) hy with hfy | ⟨t, ht⟩
    · exact Bool.not_eq_true _ ▸ (ticks_add hfx hfy).1
    · rw [ht, add_infinity_right t hfx, isNaN_stored_infinity]
      exact Bool.false_ne_true
  · rcases isFinite_or_infinity (u := form y) hy with hfy | ⟨t, ht⟩
    · refine iff_of_false ?_ fun ⟨s, _, h⟩ => ne_infinity_of_isFinite hfy (-s) h
      rw [hs, add_infinity_left s hfy, isNaN_stored_infinity]
      exact Bool.false_ne_true
    · simp only [hs, ht, isNaN_add_infinity, UnpackedFloat.infinity.injEq, exists_eq_left']

lemma isInf_iff (x : Float) : x.isInf = true ↔ ∃ s, form x = .infinity s := by
  have hform : x.isInf = (form x).isInf := rfl
  rw [hform]
  cases form x with
  | infinity s => exact iff_of_true rfl ⟨s, rfl⟩
  | _ => exact iff_of_false Bool.false_ne_true fun ⟨_, h⟩ => nomatch h

/-- **Adding what is not negative** to a number fails to give a number in one case. -/
theorem isNaN_add_iff_of_zero_le {x y : Float} (hx : x.isNaN = false) (hy : 0.0 ≤ y) :
    (x + y).isNaN = true ↔ x.isInf = true ∧ x < 0.0 ∧ y.isInf = true := by
  have hinf := infinite_pos
  obtain ⟨hny, hpy⟩ := (zero_le_iff y).mp hy
  rw [isNaN_add_iff hx hny, isInf_iff, isInf_iff, lt_iff, ticks_zero.2, and_iff_right hx,
    and_iff_right ticks_zero.1]
  rw [ticks] at hpy ⊢
  constructor
  · rintro ⟨s, hs, ht⟩
    rw [ht] at hpy
    cases s with
    | negative =>
      refine ⟨⟨_, hs⟩, ?_, _, ht⟩
      rw [hs, ticksOf_infinity, Sign.apply]
      omega
    | positive => cases infinity_positive hpy
  · rintro ⟨⟨s, hs⟩, hneg, t, ht⟩
    rw [ht] at hpy
    obtain rfl := infinity_positive hpy
    cases s with
    | negative => exact ⟨_, hs, ht⟩
    | positive =>
      rw [hs, ticksOf_infinity, Sign.apply] at hneg
      omega

/-- **A sum of what is not negative** is not negative. -/
theorem zero_le_add {x y : Float} (hx : 0.0 ≤ x) (hy : 0.0 ≤ y) : 0.0 ≤ x + y := by
  obtain ⟨hnx, hpx⟩ := (zero_le_iff x).mp hx
  have hnum : (x + y).isNaN = false := by
    rw [← Bool.not_eq_true, isNaN_add_iff_of_zero_le hnx hy]
    rintro ⟨-, hneg, -⟩
    have hlt := ((lt_iff _ _).mp hneg).2.2
    rw [ticks_zero.2] at hlt
    omega
  have hle := (le_iff _ _).mp (le_add_of_zero_le hnx hy hnum)
  exact (zero_le_iff _).mpr ⟨hnum, hpx.trans hle.2.2⟩

/-- Infinity has a product with every number but zero. -/
lemma isNaN_mul_infinity {a : UnpackedFloat} (ha : a.isNaN = false) (hzero : ticksOf a ≠ 0)
    (s : Sign) :
    (stored (UnpackedFloat.mul .binary64 a (.infinity s))).isNaN = false ∧
      (stored (UnpackedFloat.mul .binary64 (.infinity s) a)).isNaN = false := by
  cases a with
  | notANumber => cases ha
  | zero t => exact absurd (ticksOf_zero t) hzero
  | infinity t => exact ⟨isNaN_stored_infinity (t * s), isNaN_stored_infinity (s * t)⟩
  | finite t m e hpos => exact ⟨isNaN_stored_infinity (t * s), isNaN_stored_infinity (s * t)⟩

/-- **A product of numbers is a number**, unless it is one of a zero and an infinity. -/
theorem isNaN_mul_eq_false {x y : Float} (hx : x.isNaN = false) (hy : y.isNaN = false)
    (hleft : ticks x = 0 → y.isFinite = true) (hright : ticks y = 0 → x.isFinite = true) :
    (x * y).isNaN = false := by
  rcases isFinite_or_infinity (u := form x) hx with hfx | ⟨s, hs⟩
  · rcases isFinite_or_infinity (u := form y) hy with hfy | ⟨t, ht⟩
    · exact (ticks_mul hfx hfy).1
    · have hzero : ticks x ≠ 0 := fun h => ne_infinity_of_isFinite (hleft h) t ht
      rw [← isNaN_form, form_mul, ht]
      exact (isNaN_mul_infinity (a := form x) hx hzero t).1
  · have hzero : ticks y ≠ 0 := fun h => ne_infinity_of_isFinite (hright h) s hs
    rw [← isNaN_form, form_mul, hs]
    exact (isNaN_mul_infinity (a := form y) hy hzero s).2

/-- The square of what is not negative is not negative. -/
lemma zero_le_mul_self {x : Float} (hx : 0.0 ≤ x) : 0.0 ≤ x * x := by
  have hnum := ((zero_le_iff x).mp hx).1
  have hfinite := isFinite_of_ticks_eq_zero hnum
  refine (zero_le_mul hx hx).resolve_left ?_
  rw [isNaN_mul_eq_false hnum hnum hfinite hfinite]
  exact Bool.false_ne_true

/-- A multiple of what is not negative is not negative, if the factor is finite and positive. -/
lemma zero_le_mul_of_pos {x y : Float} (hx : x.isFinite = true) (hpos : 0.0 < x) (hy : 0.0 ≤ y) :
    0.0 ≤ x * y := by
  have hticks := ((lt_iff _ _).mp hpos).2.2
  rw [ticks_zero.2] at hticks
  have hnum := isNaN_mul_eq_false (isNaN_of_isFinite hx) ((zero_le_iff y).mp hy).1
    (fun h => absurd h hticks.ne') fun _ => hx
  refine (zero_le_mul ((zero_le_iff x).mpr ⟨isNaN_of_isFinite hx, hticks.le⟩) hy).resolve_left ?_
  rw [hnum]
  exact Bool.false_ne_true

/-- **A finite number times a zero** is a zero. -/
theorem ticks_mul_zero {x y : Float} (hx : x.isFinite = true) (hy : y.isNaN = false)
    (hzero : ticks y = 0) : (x * y).isNaN = false ∧ ticks (x * y) = 0 := by
  have hfy := isFinite_of_ticks_eq_zero hy hzero
  have h := ticks_mul hx hfy
  rwa [hzero, mul_zero, Int.zero_ediv, roundInt_zero] at h

lemma eq_notANumber {u : UnpackedFloat} (h : u.isNaN = true) : u = .notANumber := by
  cases u with
  | notANumber => rfl
  | _ => cases h

/-- **What is not a number** stays so in a sum. -/
theorem isNaN_add {x y : Float} (h : x.isNaN = true ∨ y.isNaN = true) :
    (x + y).isNaN = true := by
  rw [← isNaN_form, form_add]
  rcases h with h | h
  · rw [eq_notANumber (u := form x) h]
    cases form y <;> exact isNaN_stored_notANumber
  · rw [eq_notANumber (u := form y) h]
    cases form x <;> exact isNaN_stored_notANumber

/-- **What is not a number** stays so in a product. -/
theorem isNaN_mul {x y : Float} (h : y.isNaN = true) : (x * y).isNaN = true := by
  rw [← isNaN_form, form_mul, eq_notANumber (u := form y) h]
  cases form x <;> exact isNaN_stored_notANumber

end NelderMead.Binary64
