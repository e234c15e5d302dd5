import NelderMead.Proofs.Binary64.Ticks

/-!
# Rounding on the grid

The machine rounds a mantissa by shifting it to the right, bit by bit, while two further bits keep
what is lost.  Here the mantissa with these bits is read as one number of quarters.  A shift and the
final rounding are then monotone functions of that number, and exact where nothing is lost.

* `rounded` — `k / 2 ^ t`, rounded to nearest and to even on a tie.
* `roundTicks` — a number of ticks, rounded to the precision and the least exponent of binary64.
* **`roundTicks_mono`, `roundTicks_of_fits`** — rounding is monotone and keeps what binary64 has.
* **`ticksOf_round`** — the rounding of the machine is `roundTicks`, cut off at infinity.
-/

namespace NelderMead.Binary64

open Float.Model (UnpackedFloat Format totalExponent)
open Float.Model.UnpackedFloat

/-! ## Shifts as functions of quarters -/

/-- A mantissa and its two further bits as one number. -/
def quarters (em : ExtendedMantissa) : ℕ :=
  4 * em.mantissa + 2 * em.roundBit.toNat + em.stickyBit.toNat

/-- Rounds a number of quarters to nearest, and to even on a tie. -/
def nearest (q : ℕ) : ℕ := (q + 1 + q / 4 % 2) / 4

lemma quarters_shiftRightOne (em : ExtendedMantissa) :
    quarters em.shiftRightOne = 2 * (quarters em / 4) + min 1 (quarters em % 4) := by
  obtain ⟨m, r, s⟩ := em
  have hm : (m % 2 != 0).toNat = m % 2 := by
    rcases Nat.mod_two_eq_zero_or_one m with h | h <;> simp [h]
  cases r <;> cases s <;> simp only [quarters, ExtendedMantissa.shiftRightOne, hm, Bool.or_true,
    Bool.or_false, Bool.toNat_true, Bool.toNat_false] <;> omega

lemma roundedMantissa_eq_nearest (em : ExtendedMantissa) :
    em.roundedMantissa = nearest (quarters em) := by
  obtain ⟨m, r, s⟩ := em
  have hdiv : (4 * m + 2 * r.toNat + s.toNat) / 4 = m := by
    have hr := r.toNat_le
    have hs := s.toNat_le
    omega
  rw [nearest, quarters, hdiv]
  cases r <;> cases s <;> simp only [ExtendedMantissa.roundedMantissa, ExtendedMantissa.accuracy,
    Accuracy.roundToNearestEven, Bool.toNat_true, Bool.toNat_false] <;> omega

lemma nearest_mono {q q' : ℕ} (h : q ≤ q') : nearest q ≤ nearest q' := by
  rcases (Nat.div_le_div_right h : q / 4 ≤ q' / 4).eq_or_lt with heq | hlt
  · rw [nearest, nearest, heq]
    omega
  · calc nearest q ≤ q / 4 + 1 := by rw [nearest]; omega
      _ ≤ q' / 4 := hlt
      _ ≤ nearest q' := by rw [nearest]; omega

lemma shift_succ (em : ExtendedMantissa) (t : ℕ) : em >>> (t + 1) = (em >>> t).shiftRightOne := rfl

lemma quarters_shift_mono {em em' : ExtendedMantissa} (h : quarters em ≤ quarters em') (t : ℕ) :
    quarters (em >>> t) ≤ quarters (em' >>> t) := by
  induction t with
  | zero => exact h
  | succ t ih =>
    rw [shift_succ, shift_succ, quarters_shiftRightOne, quarters_shiftRightOne]
    omega

lemma shift_add (em : ExtendedMantissa) (a b : ℕ) : em >>> (a + b) = (em >>> a) >>> b := by
  induction b with
  | zero => rfl
  | succ b ih => exact congrArg ExtendedMantissa.shiftRightOne ih

/-- A mantissa of which nothing was lost. -/
abbrev exactly (m : ℕ) : ExtendedMantissa := .ofMantissaAndAccuracy m .exact

lemma shiftRightOne_exactly (m : ℕ) : (exactly (m * 2)).shiftRightOne = exactly m := by
  simp [exactly, ExtendedMantissa.ofMantissaAndAccuracy, ExtendedMantissa.shiftRightOne]

/-- A shift that loses only zeros is exact. -/
lemma shift_exactly (m t : ℕ) : exactly (m * 2 ^ t) >>> t = exactly m := by
  induction t generalizing m with
  | zero =>
    rw [pow_zero, mul_one]
    rfl
  | succ t ih =>
    have h : exactly (m * 2 ^ (t + 1)) >>> t = exactly (m * 2) := by
      rw [← ih (m * 2), pow_succ, mul_assoc, mul_comm (2 ^ t)]
    rw [shift_add, h]
    exact shiftRightOne_exactly m

/-! ## Rounding a quotient -/

/-- **`k / 2 ^ t`, rounded** to nearest, and to even on a tie. -/
def rounded (k t : ℕ) : ℕ := (exactly k >>> t).roundedMantissa

lemma rounded_mono {k k' : ℕ} (h : k ≤ k') (t : ℕ) : rounded k t ≤ rounded k' t := by
  have hquarters : quarters (exactly k) ≤ quarters (exactly k') := by
    simp only [quarters, exactly, ExtendedMantissa.ofMantissaAndAccuracy]
    omega
  rw [rounded, rounded, roundedMantissa_eq_nearest, roundedMantissa_eq_nearest]
  exact nearest_mono (quarters_shift_mono hquarters t)

lemma rounded_scaled (k c t : ℕ) : rounded (k * 2 ^ c) (c + t) = rounded k t := by
  rw [rounded, shift_add, shift_exactly, rounded]

lemma rounded_exact (m t : ℕ) : rounded (m * 2 ^ t) t = m :=
  rounded_scaled m t 0

/-! ## Rounding a number of ticks -/

/-- The position of the last bit that a number of `k` ticks keeps: 53 bits are kept, unless the
least exponent allows fewer. -/
def lastBit (k : ℕ) : ℕ := max (k.log2 - 52) 1074

/-- **A number of ticks, rounded** to what binary64 has, were there no largest exponent. -/
def roundTicks (k : ℕ) : ℕ := rounded k (lastBit k) * 2 ^ lastBit k

lemma log2_mono {k k' : ℕ} (h : k ≤ k') : k.log2 ≤ k'.log2 := by
  rcases Nat.eq_zero_or_pos k with rfl | hk
  · simp
  · exact (Nat.le_log2 (by omega)).mpr ((Nat.log2_self_le hk.ne').trans h)

lemma lastBit_mono {k k' : ℕ} (h : k ≤ k') : lastBit k ≤ lastBit k' := by
  have hlog := log2_mono h
  rw [lastBit, lastBit]
  omega

/-- A rounded mantissa has 53 bits, or it is the power of two above these. -/
lemma rounded_lastBit_le (k : ℕ) : rounded k (lastBit k) ≤ 2 ^ 53 := by
  have hk : k ≤ 2 ^ 53 * 2 ^ lastBit k := by
    rw [← Nat.pow_add]
    refine Nat.lt_log2_self.le.trans (Nat.pow_le_pow_right (by omega) ?_)
    rw [lastBit]
    omega
  have h := rounded_mono hk (lastBit k)
  rwa [rounded_exact] at h

lemma le_rounded_lastBit {k : ℕ} (h : 1074 < lastBit k) : 2 ^ 52 ≤ rounded k (lastBit k) := by
  have hlog : k.log2 = 52 + lastBit k := by
    rw [lastBit] at h ⊢
    omega
  have hk : 2 ^ 52 * 2 ^ lastBit k ≤ k := by
    rw [← Nat.pow_add, ← hlog]
    refine Nat.log2_self_le ?_
    rintro rfl
    rw [Nat.log2_zero] at hlog
    omega
  have h := rounded_mono hk (lastBit k)
  rwa [rounded_exact] at h

/-- **Rounding is monotone.**  Where the last bits differ, a power of two lies in between. -/
theorem roundTicks_mono {k k' : ℕ} (h : k ≤ k') : roundTicks k ≤ roundTicks k' := by
  rcases (lastBit_mono h).eq_or_lt with heq | hlt
  · rw [roundTicks, roundTicks, ← heq]
    exact Nat.mul_le_mul_right _ (rounded_mono h _)
  · have hfull : 1074 < lastBit k' := lt_of_le_of_lt (le_max_right _ _) hlt
    calc roundTicks k ≤ 2 ^ 53 * 2 ^ lastBit k := Nat.mul_le_mul_right _ (rounded_lastBit_le k)
      _ = 2 ^ 52 * 2 ^ (lastBit k + 1) := by ring
      _ ≤ 2 ^ 52 * 2 ^ lastBit k' :=
        Nat.mul_le_mul_left _ (Nat.pow_le_pow_right (by omega) hlt)
      _ ≤ roundTicks k' := Nat.mul_le_mul_right _ (le_rounded_lastBit hfull)

lemma lastBit_mul_two_pow_le {m q : ℕ} (hm : m < 2 ^ 53) (hq : 1074 ≤ q) :
    lastBit (m * 2 ^ q) ≤ q := by
  rcases Nat.eq_zero_or_pos m with rfl | hpos
  · rw [zero_mul, lastBit, Nat.log2_zero]
    omega
  · have hlt : m * 2 ^ q < 2 ^ (53 + q) := by
      rw [Nat.pow_add]
      exact Nat.mul_lt_mul_of_pos_right hm (by positivity)
    have hlog := (Nat.log2_lt (by positivity)).mpr hlt
    rw [lastBit]
    omega

/-- **Rounding keeps what fits** into 53 bits above the least exponent. -/
theorem roundTicks_of_fits {m q : ℕ} (hm : m < 2 ^ 53) (hq : 1074 ≤ q) :
    roundTicks (m * 2 ^ q) = m * 2 ^ q := by
  set t := lastBit (m * 2 ^ q) with ht
  obtain ⟨d, hd⟩ : ∃ d, q = d + t :=
    ⟨q - t, (Nat.sub_add_cancel (lastBit_mul_two_pow_le hm hq)).symm⟩
  have hsplit : m * 2 ^ q = m * 2 ^ d * 2 ^ t := by rw [hd, pow_add, mul_assoc]
  rw [roundTicks, ← ht, hsplit, rounded_exact]

/-! ## The rounding of the machine -/

lemma log2_mul_two_pow {m : ℕ} (hm : 0 < m) (c : ℕ) : (m * 2 ^ c).log2 = m.log2 + c := by
  refine (Nat.log2_eq_iff (by positivity)).mpr ⟨?_, ?_⟩
  · rw [pow_add]
    exact Nat.mul_le_mul_right _ (Nat.log2_self_le hm.ne')
  · rw [add_right_comm, pow_add]
    exact Nat.mul_lt_mul_of_pos_right Nat.lt_log2_self (by positivity)

lemma targetExponent_eq_max (m : ℕ) (e : ℤ) :
    Format.binary64.targetExponent (totalExponent m e) = max (m.log2 + 1 + e - 53) (-1074) := rfl

/-- The exponent that the machine rounds to is that of the last bit. -/
lemma targetExponent_eq_lastBit {m : ℕ} {e : ℤ} (hm : 0 < m) (he : -2148 ≤ e) :
    Format.binary64.targetExponent (totalExponent m e) = lastBit (magnitude m e) - 2148 := by
  rw [targetExponent_eq_max, lastBit, magnitude, log2_mul_two_pow hm]
  omega

lemma shiftToTargetExponent_of_lt {r : ℕ} {e : ℤ} (hr : r < 2 ^ 53) (he : -1074 ≤ e) :
    shiftToTargetExponent .binary64 r e .exact = (exactly r, e) := by
  have hlog : r.log2 ≤ 52 := by
    rcases Nat.eq_zero_or_pos r with rfl | hpos
    · simp
    · exact Nat.le_of_lt_succ ((Nat.log2_lt hpos.ne').mpr hr)
  have hshift : (Format.binary64.targetExponent (totalExponent r e) - e).toNat = 0 := by
    rw [targetExponent_eq_max]
    omega
  rw [shiftToTargetExponent, shiftToExponent, hshift]
  exact Prod.ext rfl (by simp)

/-- A mantissa that was rounded up to 54 bits is shifted once more, which loses a zero. -/
lemma shiftToTargetExponent_carry {e : ℤ} (he : -1074 ≤ e) :
    shiftToTargetExponent .binary64 (2 ^ 53) e .exact = (exactly (2 ^ 52), e + 1) := by
  have hshift : (Format.binary64.targetExponent (totalExponent (2 ^ 53) e) - e).toNat = 1 := by
    rw [targetExponent_eq_max, Nat.log2_two_pow]
    omega
  rw [shiftToTargetExponent, shiftToExponent, hshift]
  exact Prod.ext (shift_exactly (2 ^ 52) 1) rfl

/-- The first shift brings the last bit that is kept to the end of the mantissa. -/
lemma shiftToTargetExponent_eq {m : ℕ} {e : ℤ} (hm : 0 < m) (he : -2148 ≤ e)
    (hle : (e + 2148).toNat ≤ lastBit (magnitude m e)) :
    ∃ em : ExtendedMantissa,
      shiftToTargetExponent .binary64 m e .exact = (em, (lastBit (magnitude m e) : ℤ) - 2148) ∧
        em.roundedMantissa = rounded (magnitude m e) (lastBit (magnitude m e)) := by
  obtain ⟨d, hd⟩ := Nat.exists_eq_add_of_le hle
  have hshift : ((lastBit (magnitude m e) : ℤ) - 2148 - e).toNat = d := by omega
  refine ⟨exactly m >>> d, ?_, ?_⟩
  · rw [shiftToTargetExponent, targetExponent_eq_lastBit hm he, shiftToExponent, hshift]
    exact Prod.ext rfl (by simp only; omega)
  · rw [hd, magnitude, rounded_scaled, rounded]

/-- A magnitude beyond the range of exponents packs as infinity, any other as itself. -/
lemma ticksOf_pack_finite (s : Sign) {m : ℕ} {e : ℤ} (hpos : 0 < m) (hm : m < 2 ^ 53)
    (he : -1074 ≤ e) (hfull : 2 ^ 52 ≤ m ∨ e = -1074) :
    (stored (.finite s m e hpos)).isNaN = false ∧
      ticksOf (stored (.finite s m e hpos)) =
        s.apply (min (magnitude m e) infinite : ℕ) := by
  by_cases hrange : e ≤ 971
  · have hcanonical : Canonical (.finite s m e hpos) := ⟨hm, he, hrange, hfull⟩
    rw [stored_of_canonical hcanonical, min_eq_left (magnitude_lt_infinite hm he hrange).le]
    exact ⟨rfl, rfl⟩
  · have hwide := hfull.resolve_right (by omega)
    rw [stored_of_overflow s hpos (by omega),
      min_eq_right (infinite_le_magnitude hwide (by omega))]
    exact ⟨rfl, rfl⟩

lemma roundWithAccuracy_eq {s : Sign} {m r : ℕ} {e e₁ e₂ : ℤ} {em : ExtendedMantissa}
    (h₁ : shiftToTargetExponent .binary64 m e .exact = (em, e₁))
    (h₂ : shiftToTargetExponent .binary64 em.roundedMantissa e₁ .exact = (exactly r, e₂)) :
    roundWithAccuracy .binary64 s m e .exact =
      if h : r = 0 then .zero s else .finite s r e₂ (Nat.pos_of_ne_zero h) := by
  rw [roundWithAccuracy, h₁]
  dsimp only
  rw [h₂]
  rfl

lemma magnitude_lastBit (r t : ℕ) : magnitude r ((t : ℤ) - 2148) = r * 2 ^ t := by
  rw [magnitude, sub_add_cancel, Int.toNat_natCast]

/-- **The rounding of a product.**  Its exponent is not above that of the last bit. -/
theorem ticksOf_roundWithAccuracy (s : Sign) {m : ℕ} {e : ℤ} (hm : 0 < m) (he : -2148 ≤ e)
    (hle : (e + 2148).toNat ≤ lastBit (magnitude m e)) :
    (stored (roundWithAccuracy .binary64 s m e .exact)).isNaN = false ∧
      ticksOf (stored (roundWithAccuracy .binary64 s m e .exact)) =
        s.apply (min (roundTicks (magnitude m e)) infinite : ℕ) := by
  obtain ⟨em, hfirst, hround⟩ := shiftToTargetExponent_eq hm he hle
  have hbound := rounded_lastBit_le (magnitude m e)
  have hwide := le_rounded_lastBit (k := magnitude m e)
  have hmin : 1074 ≤ lastBit (magnitude m e) := le_max_right _ _
  rw [roundTicks, ← magnitude_lastBit]
  rw [← hround] at hbound hwide ⊢
  generalize lastBit (magnitude m e) = t at *
  rcases hbound.lt_or_eq with hlt | hcarry
  · rw [roundWithAccuracy_eq hfirst (shiftToTargetExponent_of_lt hlt (by omega))]
    by_cases hzero : em.roundedMantissa = 0
    · rw [dif_pos hzero, stored_of_canonical (by trivial), hzero, magnitude, zero_mul, Nat.zero_min]
      cases s <;> exact ⟨rfl, rfl⟩
    · rw [dif_neg hzero]
      refine ticksOf_pack_finite s _ hlt (by omega) ?_
      rcases hmin.eq_or_lt with h | h
      · right
        omega
      · exact Or.inl (hwide h)
  · -- a carry doubles the unit and halves the mantissa
    have hdouble : magnitude (2 ^ 53) ((t : ℤ) - 2148) = magnitude (2 ^ 52) (t - 2148 + 1) := by
      have hexponent : ((t : ℤ) - 2148 + 1 + 2148).toNat = t + 1 := by omega
      rw [magnitude_lastBit, magnitude, hexponent]
      ring
    have hsecond := shiftToTargetExponent_carry (e := (t : ℤ) - 2148) (by omega)
    rw [← hcarry] at hsecond
    rw [roundWithAccuracy_eq hfirst hsecond, hcarry, hdouble, dif_neg (by norm_num)]
    exact ticksOf_pack_finite s _ (by norm_num) (by omega) (Or.inl le_rfl)

/-- **The rounding of a sum**, whose exponent may be above that of the last bit. -/
theorem ticksOf_round (s : Sign) {m : ℕ} {e : ℤ} (hm : 0 < m) (he : -2148 ≤ e) :
    (stored (round .binary64 s m e)).isNaN = false ∧
      ticksOf (stored (round .binary64 s m e)) =
        s.apply (min (roundTicks (magnitude m e)) infinite : ℕ) := by
  set d := (e - (lastBit (magnitude m e) - 2148)).toNat with hd
  have hlast : 1074 ≤ lastBit (magnitude m e) := le_max_right _ _
  have hexponent : (e - d + 2148).toNat + d = (e + 2148).toNat := by omega
  have hsame : magnitude (m * 2 ^ d) (e - d) = magnitude m e := by
    rw [magnitude, magnitude, mul_assoc, ← pow_add, add_comm d, hexponent]
  have h := ticksOf_roundWithAccuracy s (m := m * 2 ^ d) (e := e - d) (by positivity) (by omega)
    (by rw [hsame]; omega)
  rw [hsame] at h
  rw [UnpackedFloat.round, targetExponent_eq_lastBit hm he, decreaseExponent, ← hd,
    Nat.shiftLeft_eq]
  exact h

end NelderMead.Binary64
