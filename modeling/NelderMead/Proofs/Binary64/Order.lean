import NelderMead.Proofs.Binary64.Arithmetic

/-!
# Order and arithmetic

Rounding does not turn an order round, so sums and products of what is not negative grow with their
parts, overflow included.  And a sum of two numbers is never rounded to zero unless it is zero: both
are multiples of the least positive number, and so is their sum.

* `isFinite_of_between`, `isFinite_of_isFinite_add` — what lies between finite numbers is finite,
  and so are the summands of a finite sum.
* **`add_le_add_of_zero_le`**, **`mul_le_mul_of_zero_le`** — sums and products that grow.
* `form_neg`, `ticks_neg` — opposites.
* **`zero_lt_ticks_add_iff`** — the sign of a sum is that of the exact sum.
* `ticks_unit_mul`, `ticks_mul_unit`, `isNaN_zero_mul` — products with one, with its opposite and
  with zero.
-/

namespace NelderMead.Binary64

open Float.Model (UnpackedFloat)
open Float.Model.UnpackedFloat

/-! ## Sums and products that grow -/

section Growing

variable {x x' y y' : Float}

/-- What is not negative is finite or infinity. -/
lemma isFinite_or_form_eq (hx : 0.0 ≤ x) : x.isFinite = true ∨ form x = .infinity .positive := by
  obtain ⟨hnum, hpos⟩ := (zero_le_iff x).mp hx
  rcases isFinite_or_infinity (u := form x) hnum with hfinite | ⟨s, hs⟩
  · exact Or.inl hfinite
  · rw [ticks, hs] at hpos
    rw [hs, infinity_positive hpos]
    exact Or.inr rfl

/-- Nothing is above infinity. -/
lemma le_of_form_eq (hx : x.isNaN = false) (hy : form y = .infinity .positive) : x ≤ y := by
  refine (le_iff _ _).mpr ⟨hx, by rw [← isNaN_form, hy]; rfl, ?_⟩
  rw [ticks, ticks, hy]
  exact (abs_le.mp (abs_ticksOf_le (canonical_form x))).2

/-- What lies between finite numbers is finite. -/
lemma isFinite_of_between {l u : Float} (hl : l ≤ x) (hu : x ≤ u) (hfl : l.isFinite = true)
    (hfu : u.isFinite = true) : x.isFinite = true := by
  obtain ⟨-, hnum, hlower⟩ := (le_iff l x).mp hl
  obtain ⟨-, -, hupper⟩ := (le_iff x u).mp hu
  refine (isFinite_or_infinity (u := form x) hnum).resolve_right ?_
  rintro ⟨s, hs⟩
  have hlow : |ticks l| < infinite := abs_ticksOf_lt (canonical_form l) hfl
  have hhigh : |ticks u| < infinite := abs_ticksOf_lt (canonical_form u) hfu
  have hticks : ticks x = s.apply infinite := by rw [ticks, hs, ticksOf_infinity]
  rw [abs_lt] at hlow hhigh
  cases s with
  | negative =>
    rw [Sign.apply] at hticks
    omega
  | positive =>
    rw [Sign.apply] at hticks
    omega

lemma isFinite_of_le (hx : 0.0 ≤ x) (hxy : x ≤ y) (hy : y.isFinite = true) : x.isFinite = true :=
  isFinite_of_between hx hxy (isFinite_of_ticks_eq_zero ticks_zero.1 ticks_zero.2) hy

/-- A sum of what is not negative is infinite if a summand is. -/
lemma form_add_of_infinity (hx : 0.0 ≤ x) (hy : 0.0 ≤ y)
    (hinf : form x = .infinity .positive ∨ form y = .infinity .positive) :
    form (x + y) = .infinity .positive := by
  rw [form_add]
  rcases isFinite_or_form_eq hx with hfx | hfx
  · rw [hinf.resolve_left (ne_infinity_of_isFinite hfx _), add_infinity_right _ (a := form x) hfx]
    rfl
  · rcases isFinite_or_form_eq hy with hfy | hfy
    · rw [hfx, add_infinity_left _ (b := form y) hfy]
      rfl
    · rw [hfx, hfy]
      rfl

/-- So is a product, if it is a number. -/
lemma form_mul_of_infinity (hx : 0.0 ≤ x) (hy : 0.0 ≤ y) (hnum : (x * y).isNaN = false)
    (hinf : form x = .infinity .positive ∨ form y = .infinity .positive) :
    form (x * y) = .infinity .positive := by
  have hpx := ((zero_le_iff x).mp hx).2
  have hpy := ((zero_le_iff y).mp hy).2
  rw [← isNaN_form, form_mul] at hnum
  rw [form_mul]
  rw [ticks] at hpx hpy
  generalize form x = a at *
  generalize form y = b at *
  rcases hinf with rfl | rfl
  · rcases b with s | _ | s | ⟨s, m, e, hpos⟩
    · obtain rfl := infinity_positive hpy
      rfl
    · cases isNaN_stored_notANumber.symm.trans hnum
    · cases isNaN_stored_notANumber.symm.trans hnum
    · obtain rfl := finite_positive hpy
      exact stored_of_canonical (u := .infinity .positive) trivial
  · rcases a with s | _ | s | ⟨s, m, e, hpos⟩
    · obtain rfl := infinity_positive hpx
      rfl
    · cases isNaN_stored_notANumber.symm.trans hnum
    · cases isNaN_stored_notANumber.symm.trans hnum
    · obtain rfl := finite_positive hpx
      exact stored_of_canonical (u := .infinity .positive) trivial

/-- **Sums of what is not negative** grow with their summands. -/
theorem add_le_add_of_zero_le (hx : 0.0 ≤ x) (hxx : x ≤ x') (hy : 0.0 ≤ y) (hyy : y ≤ y') :
    x + y ≤ x' + y' := by
  have hx' := le_trans_float hx hxx
  have hy' := le_trans_float hy hyy
  have hnum := ((zero_le_iff _).mp (zero_le_add hx hy)).1
  rcases isFinite_or_form_eq hx' with hfx' | hinf
  · rcases isFinite_or_form_eq hy' with hfy' | hinf
    · obtain ⟨-, hsum⟩ := ticks_add (isFinite_of_le hx hxx hfx') (isFinite_of_le hy hyy hfy')
      obtain ⟨hnum', hsum'⟩ := ticks_add hfx' hfy'
      refine (le_iff _ _).mpr ⟨hnum, hnum', ?_⟩
      rw [hsum, hsum']
      exact roundInt_mono (add_le_add ((le_iff _ _).mp hxx).2.2 ((le_iff _ _).mp hyy).2.2)
    · exact le_of_form_eq hnum (form_add_of_infinity hx' hy' (Or.inr hinf))
  · exact le_of_form_eq hnum (form_add_of_infinity hx' hy' (Or.inl hinf))

/-- **Products of what is not negative** grow with their factors, as far as they are numbers. -/
theorem mul_le_mul_of_zero_le (hx : 0.0 ≤ x) (hxx : x ≤ x') (hy : 0.0 ≤ y) (hyy : y ≤ y')
    (hnum : (x * y).isNaN = false) (hnum' : (x' * y').isNaN = false) : x * y ≤ x' * y' := by
  have hx' := le_trans_float hx hxx
  have hy' := le_trans_float hy hyy
  rcases isFinite_or_form_eq hx' with hfx' | hinf
  · rcases isFinite_or_form_eq hy' with hfy' | hinf
    · obtain ⟨-, hprod⟩ := ticks_mul (isFinite_of_le hx hxx hfx') (isFinite_of_le hy hyy hfy')
      obtain ⟨-, hprod'⟩ := ticks_mul hfx' hfy'
      refine (le_iff _ _).mpr ⟨hnum, hnum', ?_⟩
      rw [hprod, hprod']
      refine roundInt_mono (Int.ediv_le_ediv (by exact_mod_cast unit_pos) ?_)
      exact mul_le_mul ((le_iff _ _).mp hxx).2.2 ((le_iff _ _).mp hyy).2.2
        ((zero_le_iff y).mp hy).2 ((zero_le_iff x').mp hx').2
    · exact le_of_form_eq hnum (form_mul_of_infinity hx' hy' hnum' (Or.inr hinf))
  · exact le_of_form_eq hnum (form_mul_of_infinity hx' hy' hnum' (Or.inl hinf))

end Growing

/-- A zero as the first summand. -/
lemma ticks_zero_add {x y : Float} (hx : x.isNaN = false) (hzero : ticks x = 0)
    (hy : y.isNaN = false) : (x + y).isNaN = false ∧ ticks (x + y) = ticks y := by
  have hfx := isFinite_of_ticks_eq_zero hx hzero
  rcases isFinite_or_infinity (u := form y) hy with hfy | ⟨s, hs⟩
  · have h := ticks_add hfx (y := y) hfy
    have hround := roundInt_ticksOf (canonical_form y) hfy
    rwa [hzero, zero_add, ticks, ticks, hround] at h
  · rw [← isNaN_form, ticks, ticks, form_add, hs, add_infinity_right s (a := form x) hfx,
      stored_of_canonical (by trivial)]
    exact ⟨rfl, rfl⟩

/-- A finite sum has finite summands. -/
lemma isFinite_of_isFinite_add {x y : Float} (h : (x + y).isFinite = true) :
    x.isFinite = true ∧ y.isFinite = true := by
  have hnum := isNaN_of_isFinite h
  have hnx : x.isNaN = false := by
    rw [← Bool.not_eq_true]
    exact fun hnan => Bool.false_ne_true (hnum.symm.trans (isNaN_add (Or.inl hnan)))
  have hny : y.isNaN = false := by
    rw [← Bool.not_eq_true]
    exact fun hnan => Bool.false_ne_true (hnum.symm.trans (isNaN_add (Or.inr hnan)))
  rw [← isFinite_form, form_add] at h
  rcases isFinite_or_infinity (u := form x) hnx with hfx | ⟨s, hs⟩
  · refine ⟨hfx, (isFinite_or_infinity (u := form y) hny).resolve_right ?_⟩
    rintro ⟨s, hs⟩
    rw [hs, add_infinity_right s (a := form x) hfx, stored_of_canonical (by trivial)] at h
    cases h
  · rcases isFinite_or_infinity (u := form y) hny with hfy | ⟨t, ht⟩
    · rw [hs, add_infinity_left s (b := form y) hfy, stored_of_canonical (by trivial)] at h
      cases h
    · rw [hs, ht] at h
      cases s <;> cases t <;> cases h

/-! ## Opposites -/

lemma form_neg (x : Float) : form (-x) = (form x).neg :=
  stored_of_canonical (canonical_neg (canonical_form x))

lemma isFinite_neg_float (x : Float) : (-x).isFinite = x.isFinite := by
  rw [← isFinite_form, form_neg, isFinite_neg, isFinite_form]

lemma ticks_neg (x : Float) : ticks (-x) = -ticks x := by
  rw [ticks, form_neg, ticksOf_neg, ticks]

/-! ## The sign of a sum -/

/-- The least positive number, in ticks. -/
def least : ℕ := magnitude 1 (-1074)

lemma dvd_ticksOf {u : UnpackedFloat} (hu : Canonical u) (hfinite : u.isFinite = true) :
    (least : ℤ) ∣ ticksOf u := by
  cases u with
  | zero s => exact dvd_zero _
  | finite s m e hpos =>
    have he := hu.2.1
    have hdvd : least ∣ magnitude m e := by
      rw [least, magnitude, magnitude, one_mul]
      exact Dvd.dvd.mul_left (Nat.pow_dvd_pow 2 (by omega)) m
    cases s with
    | negative => exact (Int.natCast_dvd_natCast.mpr hdvd).neg_right
    | positive => exact Int.natCast_dvd_natCast.mpr hdvd
  | _ => cases hfinite

/-- The least positive number is not rounded, so nothing above it is rounded to zero. -/
lemma zero_lt_roundInt_iff {z : ℤ} (hdvd : (least : ℤ) ∣ z) : 0 < roundInt z ↔ 0 < z := by
  constructor
  · intro h
    by_contra hle
    have hmono := roundInt_mono (not_lt.mp hle)
    rw [roundInt_zero] at hmono
    omega
  · intro h
    have hround := roundInt_mono (Int.le_of_dvd h hdvd)
    rw [roundInt_natCast, least, magnitude, roundTicks_of_fits (by norm_num) (by omega)] at hround
    have hpos : 0 < min (magnitude 1 (-1074)) infinite :=
      lt_min (magnitude_pos one_pos _) infinite_pos
    rw [magnitude] at hpos
    omega

/-- **The sign of a sum** is that of the exact sum, if one summand is finite. -/
theorem zero_lt_ticks_add_iff {x y : Float} (hx : x.isNaN = false) (hy : y.isFinite = true) :
    (x + y).isNaN = false ∧ (0 < ticks (x + y) ↔ 0 < ticks x + ticks y) := by
  rcases isFinite_or_infinity (u := form x) hx with hfx | ⟨s, hs⟩
  · obtain ⟨hnum, hsum⟩ := ticks_add (x := x) hfx hy
    refine ⟨hnum, ?_⟩
    rw [hsum]
    exact zero_lt_roundInt_iff (dvd_add (dvd_ticksOf (canonical_form x) hfx)
      (dvd_ticksOf (canonical_form y) hy))
  · have hinf : (0 : ℤ) < infinite := by exact_mod_cast infinite_pos
    obtain ⟨hlow, hhigh⟩ := abs_lt.mp (abs_ticksOf_lt (canonical_form y) hy)
    have hsum : form (x + y) = .infinity s := by
      rw [form_add, hs, add_infinity_left s (b := form y) hy, stored_of_canonical (by trivial)]
    rw [← isNaN_form, ticks, ticks, ticks, hsum, hs, ticksOf_infinity]
    refine ⟨rfl, ?_⟩
    cases s with
    | negative =>
      rw [Sign.apply]
      omega
    | positive =>
      rw [Sign.apply]
      omega

/-! ## Products with one and with zero -/

/-- The significand of one. -/
lemma significand_pos : 0 < 2 ^ 52 := Nat.two_pow_pos 52

lemma form_one : form 1.0 = .finite .positive (2 ^ 52) (-52) significand_pos := rfl

lemma form_neg_one : form (-1.0) = .finite .negative (2 ^ 52) (-52) significand_pos := by
  rw [form_neg, form_one]
  rfl

lemma magnitude_one : magnitude (2 ^ 52) (-52) = unit := by
  have hexponent : 52 + ((-52 : ℤ) + 2148).toNat = ((0 : ℤ) + 2148).toNat := by omega
  rw [unit, magnitude, magnitude, one_mul, ← pow_add, hexponent]

lemma apply_mul (s t : Sign) (z : ℤ) : (s * t).apply z = s.apply 1 * t.apply z := by
  cases s <;> cases t <;> simp only [Sign.apply, neg_mul, mul_neg, one_mul, neg_neg]

/-- **One and its opposite** as factors change at most the sign, also of infinity. -/
lemma ticks_unit_mul {s : Sign} {y : Float}
    (hy : form y = .finite s (2 ^ 52) (-52) significand_pos) {x : Float} (hx : x.isNaN = false) :
    (y * x).isNaN = false ∧ ticks (y * x) = s.apply 1 * ticks x := by
  have hfy : y.isFinite = true := by rw [← isFinite_form, hy]; rfl
  have hticks : ticks y = s.apply unit := by rw [ticks, hy, ticksOf_finite, magnitude_one]
  rcases isFinite_or_infinity (u := form x) hx with hfx | ⟨t, ht⟩
  · obtain ⟨hnum, hprod⟩ := ticks_mul hfy hfx
    refine ⟨hnum, ?_⟩
    have hround : roundInt (ticks x) = ticks x := roundInt_ticksOf (canonical_form x) hfx
    have hunit : (unit : ℤ) ≠ 0 := by exact_mod_cast unit_pos.ne'
    rw [hprod, hticks]
    cases s with
    | negative =>
      rw [Sign.apply, Sign.apply, neg_mul_comm, Int.mul_ediv_cancel_left _ hunit, roundInt_neg,
        hround]
      ring
    | positive =>
      rw [Sign.apply, Sign.apply, Int.mul_ediv_cancel_left _ hunit, hround, one_mul]
  · have hform : form (y * x) = .infinity (s * t) := by
      rw [form_mul, hy, ht]
      exact stored_of_canonical (u := .infinity (s * t)) trivial
    rw [← isNaN_form, ticks, hform, ticks, ht, ticksOf_infinity, ticksOf_infinity]
    exact ⟨rfl, apply_mul s t infinite⟩

/-- The order of the factors does not matter. -/
lemma form_mul_comm (x y : Float) : form (x * y) = form (y * x) := by
  have hsign : ∀ s t : Sign, s * t = t * s := by
    intro s t
    cases s <;> cases t <;> rfl
  have hmul : ∀ a b : UnpackedFloat,
      UnpackedFloat.mul .binary64 a b = UnpackedFloat.mul .binary64 b a := by
    rintro (s | _ | s | ⟨s, m, e, hm⟩) (t | _ | t | ⟨t, n, k, hn⟩)
    case finite.finite =>
      show roundWithAccuracy _ (s * t) (m * n) (e + k) _ = roundWithAccuracy _ (t * s) (n * m) _ _
      rw [hsign, Nat.mul_comm, Int.add_comm]
    case infinity.infinity | infinity.finite | finite.infinity =>
      exact congrArg UnpackedFloat.infinity (hsign s t)
    case zero.zero | zero.finite | finite.zero => exact congrArg UnpackedFloat.zero (hsign s t)
    all_goals rfl
  rw [form_mul, form_mul, hmul]

lemma ticks_mul_unit {s : Sign} {y : Float}
    (hy : form y = .finite s (2 ^ 52) (-52) significand_pos) {x : Float} (hx : x.isNaN = false) :
    (x * y).isNaN = false ∧ ticks (x * y) = s.apply 1 * ticks x := by
  have h := ticks_unit_mul hy hx
  rwa [← isNaN_form, ticks, form_mul_comm] at h

/-- Zero has a product with what is finite, and with nothing else. -/
lemma isNaN_zero_mul {x : Float} (hx : x.isFinite = false) : (0.0 * x).isNaN = true := by
  rcases hnan : x.isNaN with _ | _
  · rcases isFinite_or_infinity (u := form x) hnan with hfx | ⟨s, hs⟩
    · cases hx.symm.trans hfx
    · rw [← isNaN_form, form_mul, hs]
      exact isNaN_stored_notANumber
  · exact isNaN_mul hnan

end NelderMead.Binary64
