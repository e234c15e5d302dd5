import Mathlib
import NelderMead.Proofs.Binary64.Quotient
import NelderMead.Proofs.Confined

/-!
# Copies of a point

Arithmetic that should give a number back can lose the sign of a zero, and more than that only by
rounding.  A copy of a point has its coordinates, up to zeros that have become positive.  The mean
of copies is computed coordinate by coordinate from the coordinate alone: equal numbers are added up
from zero on, which may round or end at infinity, and the sum is divided by how many they are.  So a
point is the mean of its copies or it is not, and that can be computed.

* `IsCopy`, `Point.Copies` — copies of a number and of a point; `Point.Equals` — equal points.
* `repeatedMean`, **`Point.mean_of_copies`** — the mean of equal numbers and of copies.
* `Point.Steady`, **`Point.steady_singleton`** — points that are the means of their copies, as all
  points on a line are.
* **`Point.Steady.closedUnder`** — the copies of such a point are closed under what an iteration
  computes.
* **`Point.steady_of_reflected`** — a copy is reflected to an equal point only through such a point.
-/

namespace NelderMead

open Binary64
open Float.Model.UnpackedFloat (Sign)

/-! ## Copies of a number -/

/-- **The number `b` is a copy of `a`**: it is `a` itself, or the positive zero if `a` is a zero. -/
def IsCopy (a b : Float) : Prop := b = a ∨ (a == 0.0) = true ∧ b = 0.0

section Numbers

variable {a b c e t : Float}

lemma beq_zero_iff (a : Float) : (a == 0.0) = true ↔ a.isNaN = false ∧ ticks a = 0 := by
  rw [beq_iff, ticks_zero.2, and_iff_right ticks_zero.1]

/-- There are two zeros. -/
lemma eq_zero_or_neg_zero (h : (a == 0.0) = true) : a = 0.0 ∨ a = -0.0 := by
  obtain ⟨-, -, heq | ⟨heq, -⟩ | ⟨heq, -⟩⟩ := Float.beq_iff_ne_nan_and_eq.mp h
  · exact Or.inl heq
  · exact Or.inl (heq.trans (by decide +kernel))
  · exact Or.inr (heq.trans (by decide +kernel))

/-- Equal numbers that are not zero are the same. -/
lemma eq_of_beq_of_ne (h : (b == a) = true) (hne : ¬(a == 0.0) = true) : b = a := by
  obtain ⟨-, -, heq | ⟨-, heq⟩ | ⟨-, heq⟩⟩ := Float.beq_iff_ne_nan_and_eq.mp h
  · exact heq
  · exact absurd (heq ▸ (by decide +kernel)) hne
  · exact absurd (heq ▸ (by decide +kernel)) hne

lemma isFinite_of_beq (h : (b == a) = true) (ha : a.isFinite = true) : b.isFinite = true := by
  by_cases hzero : (a == 0.0) = true
  · obtain ⟨hnum, -, hticks⟩ := (beq_iff _ _).mp h
    exact isFinite_of_ticks_eq_zero hnum (hticks.trans ((beq_zero_iff a).mp hzero).2)
  · rwa [eq_of_beq_of_ne h hzero]

/-- Adding a zero to the positive zero gives the positive zero. -/
lemma zero_add_of_beq (h : (e == 0.0) = true) : 0.0 + e = 0.0 := by
  rcases eq_zero_or_neg_zero h with rfl | rfl <;> decide +kernel

namespace IsCopy

lemma refl (a : Float) : IsCopy a a := Or.inl rfl

/-- A copy of a number is an equal number. -/
lemma beq (h : IsCopy a b) (hnum : a.isNaN = false) : (b == a) = true := by
  rcases h with rfl | ⟨hzero, rfl⟩
  · exact (beq_iff _ _).mpr ⟨hnum, hnum, rfl⟩
  · exact (beq_iff _ _).mpr ⟨ticks_zero.1, hnum, ((beq_zero_iff a).mp hzero).2.symm⟩

/-- Only the negative zero has another copy than itself. -/
lemma eq_of_ne_neg_zero (h : IsCopy a b) (hne : a ≠ -0.0) : b = a := by
  rcases h with rfl | ⟨hzero, rfl⟩
  · rfl
  · exact ((eq_zero_or_neg_zero hzero).resolve_right hne).symm

/-- **Adding a zero** to a copy gives a copy. -/
theorem add_zero (h : IsCopy a c) (hnum : a.isNaN = false) (he : (e == 0.0) = true) :
    IsCopy a (c + e) := by
  by_cases hzero : (a == 0.0) = true
  · rcases h with rfl | ⟨-, rfl⟩
    · rcases eq_zero_or_neg_zero hzero with rfl | rfl
      · exact Or.inl (zero_add_of_beq he)
      · rcases eq_zero_or_neg_zero he with rfl | rfl
        · exact Or.inr ⟨hzero, by decide +kernel⟩
        · exact Or.inl (by decide +kernel)
    · exact Or.inr ⟨hzero, zero_add_of_beq he⟩
  · obtain rfl : c = a := h.resolve_right fun hz => hzero hz.1
    obtain ⟨heNum, heTicks⟩ := (beq_zero_iff e).mp he
    obtain ⟨hsum, hticks⟩ := ticks_add_zero hnum heNum heTicks
    exact Or.inl (eq_of_beq_of_ne ((beq_iff _ _).mpr ⟨hsum, hnum, hticks⟩) hzero)

/-- **A step between copies** leads to a copy. -/
theorem toward (hc : IsCopy a c) (ht : IsCopy a t) (ha : a.isFinite = true) {k : Float}
    (hk : k.isFinite = true) : IsCopy a (c + (t - c) * k) := by
  have hnum := isNaN_of_isFinite ha
  have hcBeq := hc.beq hnum
  have htBeq := ht.beq hnum
  obtain ⟨hdiff, hzero⟩ := ticks_sub (isFinite_of_beq htBeq ha) (isFinite_of_beq hcBeq ha)
  rw [((beq_iff _ _).mp htBeq).2.2, ((beq_iff _ _).mp hcBeq).2.2, sub_self, roundInt_zero] at hzero
  obtain ⟨hprod, hprodZero⟩ := ticks_mul (isFinite_of_ticks_eq_zero hdiff hzero) hk
  rw [hzero, zero_mul, Int.zero_ediv, roundInt_zero] at hprodZero
  exact hc.add_zero hnum ((beq_zero_iff _).mpr ⟨hprod, hprodZero⟩)

end IsCopy

/-! ## Sums and means of equal numbers -/

/-- **The sum of `k` numbers `a`**, as it is computed. -/
def repeatedSum (a : Float) : ℕ → Float
  | 0 => 0.0
  | k + 1 => repeatedSum a k + a

/-- **The mean of `k` numbers `a`**, as it is computed. -/
def repeatedMean (k : ℕ) (a : Float) : Float := repeatedSum a k / Float.ofNat k

lemma repeatedSum_of_zero (hzero : (a == 0.0) = true) (k : ℕ) : repeatedSum a k = 0.0 := by
  induction k with
  | zero => rfl
  | succ k ih => rw [repeatedSum, ih, zero_add_of_beq hzero]

/-- A copy adds what the number adds. -/
lemma repeatedSum_add_copy (h : IsCopy a b) (k : ℕ) :
    repeatedSum a k + b = repeatedSum a (k + 1) := by
  rcases h with rfl | ⟨hzero, rfl⟩
  · rfl
  · rw [repeatedSum_of_zero hzero, repeatedSum_of_zero hzero]
    decide +kernel

/-- The mean of zeros is the positive zero. -/
lemma repeatedMean_of_zero (hzero : (a == 0.0) = true) {k : ℕ} (hk : 0 < k) :
    repeatedMean k a = 0.0 := by
  obtain ⟨hnumber, hpos⟩ := zero_lt_ofNat hk
  have hform := form_zero_div hnumber hpos
  have hquot : (0.0 / Float.ofNat k == 0.0) = true := by
    rw [beq_zero_iff, ticks, ← isNaN_form, hform]
    exact ⟨rfl, rfl⟩
  rw [repeatedMean, repeatedSum_of_zero hzero]
  refine (eq_zero_or_neg_zero hquot).resolve_right fun heq => ?_
  rw [heq] at hform
  cases hform

/-- A mean that equals the number is a copy of it. -/
lemma isCopy_repeatedMean {k : ℕ} (hk : 0 < k) (h : (repeatedMean k a == a) = true) :
    IsCopy a (repeatedMean k a) := by
  by_cases hzero : (a == 0.0) = true
  · exact Or.inr ⟨hzero, repeatedMean_of_zero hzero hk⟩
  · exact Or.inl (eq_of_beq_of_ne h hzero)

lemma repeatedMean_one (ha : a.isFinite = true) : (repeatedMean 1 a == a) = true := by
  have hone : Float.ofNat 1 = 1.0 := by decide +kernel
  have hnum := isNaN_of_isFinite ha
  obtain ⟨hsum, hticks⟩ := ticks_zero_add ticks_zero.1 ticks_zero.2 hnum
  have hbeq : (0.0 + a == a) = true := (beq_iff _ _).mpr ⟨hsum, hnum, hticks⟩
  obtain ⟨hquot, hquotTicks⟩ := ticks_div_one (isFinite_of_beq hbeq ha)
  rw [repeatedMean, hone]
  exact (beq_iff _ _).mpr ⟨hquot, hnum, hquotTicks.trans hticks⟩

/-! ## Reflected numbers -/

/-- **A number that is reflected** goes to the other side, so it does not come back to where it was
unless it is reflected through an equal number. -/
lemma beq_of_reflected (ha : a.isFinite = true) (ht : (t == a) = true)
    (h : (c + (t - c) * (-reflection) == a) = true) : (c == a) = true := by
  obtain ⟨-, hnum, hticks⟩ := (beq_iff _ _).mp h
  obtain ⟨hc, hstep⟩ := isFinite_of_isFinite_add (isFinite_of_beq h ha)
  obtain ⟨hdiff, hdiffTicks⟩ := ticks_sub (isFinite_of_beq ht ha) hc
  rw [((beq_iff _ _).mp ht).2.2] at hdiffTicks
  have hround : roundInt (ticks c) = ticks c := roundInt_ticksOf (canonical_form c) hc
  have hmove : ticks ((t - c) * (-reflection)) = -roundInt (ticks a - ticks c) := by
    show ticks ((t - c) * (-1.0)) = _
    rw [(ticks_mul_unit form_neg_one hdiff).2, hdiffTicks, Sign.apply, neg_one_mul]
  rw [(ticks_add hc hstep).2, hmove] at hticks
  refine (beq_iff _ _).mpr ⟨isNaN_of_isFinite hc, hnum, ?_⟩
  rcases lt_trichotomy (ticks c) (ticks a) with hlt | heq | hgt
  · have hback := roundInt_nonneg (z := ticks a - ticks c) (by omega)
    have hle := roundInt_mono (show ticks c + -roundInt (ticks a - ticks c) ≤ ticks c by omega)
    omega
  · exact heq
  · have hback := roundInt_nonneg (z := -(ticks a - ticks c)) (by omega)
    rw [roundInt_neg] at hback
    have hle := roundInt_mono (show ticks c ≤ ticks c + -roundInt (ticks a - ticks c) by omega)
    omega

end Numbers

/-! ## Copies of a point -/

namespace Point

/-- **The point `y` is a copy of `x`**, coordinate by coordinate. -/
def Copies (x y : Point) : Prop := List.Forall₂ IsCopy x y

/-- **The point `y` equals `x`** as numbers do, coordinate by coordinate. -/
def Equals (x y : Point) : Prop := List.Forall₂ (fun a b => (b == a) = true) x y

instance (x y : Point) : Decidable (x.Equals y) :=
  inferInstanceAs (Decidable (List.Forall₂ _ _ _))

/-- **The point is the mean of its copies**, as it is computed. -/
def Steady (x : Point) : Prop := ∀ a ∈ x, (repeatedMean x.length a == a) = true

instance (x : Point) : Decidable x.Steady := inferInstanceAs (Decidable (∀ a ∈ x, _))

variable {x y c t z : Point}

lemma Copies.equals (h : x.Copies y) (hx : ∀ a ∈ x, a.isNaN = false) : x.Equals y := by
  induction h with
  | nil => exact .nil
  | cons hab _ ih =>
    obtain ⟨ha, hx⟩ := List.forall_mem_cons.mp hx
    exact .cons (hab.beq ha) (ih hx)

/-- A point without a negative zero has no other copy than itself. -/
lemma Copies.eq (h : x.Copies y) (hne : ∀ a ∈ x, a ≠ -0.0) : y = x := by
  induction h with
  | nil => rfl
  | cons hab _ ih =>
    obtain ⟨ha, hne⟩ := List.forall_mem_cons.mp hne
    rw [hab.eq_of_ne_neg_zero ha, ih hne]

/-- **All points on a line** are the means of their copies. -/
lemma steady_singleton (hlen : x.length = 1) (hx : ∀ a ∈ x, a.isFinite = true) : x.Steady := by
  intro a ha
  rw [hlen]
  exact repeatedMean_one (hx a ha)

/-! ## Means of copies -/

lemma add_copy (h : x.Copies y) (k : ℕ) :
    add (x.map (repeatedSum · k)) y = .ok (x.map (repeatedSum · (k + 1))) := by
  have hlen : (x.map (repeatedSum · k)).length = y.length := by
    rw [List.length_map, h.length_eq]
  rw [add, matching_of_eq _ hlen]
  refine congrArg Except.ok ?_
  clear hlen
  induction h with
  | nil => rfl
  | cons hab _ ih =>
    rw [List.map_cons, List.zipWith_cons_cons, repeatedSum_add_copy hab, ih, List.map_cons]

lemma foldlM_add_copies {ps : List Point} (hps : ∀ y ∈ ps, x.Copies y) (k : ℕ) :
    ps.foldlM add (x.map (repeatedSum · k)) = .ok (x.map (repeatedSum · (k + ps.length))) := by
  induction ps generalizing k with
  | nil => rfl
  | cons y ps ih =>
    obtain ⟨hy, hps⟩ := List.forall_mem_cons.mp hps
    rw [List.foldlM_cons, add_copy hy, List.length_cons, Nat.add_comm ps.length, ← Nat.add_assoc]
    exact ih hps (k + 1)

/-- **The mean of copies** depends on the point and on their number only. -/
theorem mean_of_copies {ps : List Point} (hps : ∀ y ∈ ps, x.Copies y) :
    mean x.length ps = .ok (x.map (repeatedMean ps.length)) := by
  have hsum := foldlM_add_copies hps 0
  have hzeros : x.map (repeatedSum · 0) = zeros x.length := List.map_const'
  rw [hzeros, Nat.zero_add] at hsum
  refine bind_eq_ok_iff.mpr ⟨_, hsum, ?_⟩
  rw [List.map_map]
  rfl

/-! ## What an iteration computes from copies -/

/-- Steps between copies lead to copies. -/
lemma Copies.toward (hc : x.Copies c) (ht : x.Copies t) (hx : ∀ a ∈ x, a.isFinite = true)
    {k : Float} (hk : k.isFinite = true) (hz : Point.toward c t k = .ok z) : x.Copies z := by
  obtain ⟨-, rfl⟩ := matching_eq_ok hz
  clear hz
  induction hc generalizing t with
  | nil => exact .nil
  | cons hac _ ih =>
    cases ht with
    | cons hat ht =>
      obtain ⟨ha, hx⟩ := List.forall_mem_cons.mp hx
      exact .cons (hac.toward hat ha hk) (ih ht hx)

/-- **The copies of a point that is their mean** are closed under what an iteration computes. -/
theorem Steady.closedUnder (h : x.Steady) (hx : ∀ a ∈ x, a.isFinite = true) (hpos : 0 < x.length) :
    ClosedUnder x.length x.Copies where
  mean := by
    intro ps c hlen hps hc
    obtain rfl := Except.ok.inj ((mean_of_copies hps).symm.trans hc)
    rw [hlen]
    refine List.forall₂_map_right_iff.mpr (List.forall₂_same.mpr fun a ha => ?_)
    exact isCopy_repeatedMean hpos (h a ha)
  toward := fun hc ht hk hz => hc.toward ht hx hk hz

/-- A point that is reflected to an equal one was equal to the point it is reflected through. -/
lemma Equals.of_reflected (hx : ∀ a ∈ x, a.isFinite = true) (ht : x.Equals t) (hz : x.Equals z)
    (h : Point.toward c t (-reflection) = .ok z) : x.Equals c := by
  obtain ⟨hlen, rfl⟩ := matching_eq_ok h
  clear h
  induction ht generalizing c with
  | nil =>
    obtain rfl := List.length_eq_zero_iff.mp hlen
    exact .nil
  | @cons a b x t hab _ ih =>
    cases c with
    | nil => cases hlen
    | cons d c =>
      rw [List.zipWith_cons_cons] at hz
      cases hz with
      | cons had hz =>
        obtain ⟨ha, hx⟩ := List.forall_mem_cons.mp hx
        exact .cons (beq_of_reflected ha hab had) (ih hx (Nat.succ.inj hlen) hz)

/-- **Reflecting a copy** through the mean of copies gives an equal point only if the point is the
mean of its copies. -/
theorem steady_of_reflected (hx : ∀ a ∈ x, a.isFinite = true) {ps : List Point}
    (hlen : ps.length = x.length) (hps : ∀ y ∈ ps, x.Copies y)
    (hc : mean x.length ps = .ok c) (ht : x.Copies t) (h : Point.toward c t (-reflection) = .ok z)
    (hz : x.Equals z) : x.Steady := by
  have hnum : ∀ a ∈ x, a.isNaN = false := fun a ha => isNaN_of_isFinite (hx a ha)
  obtain rfl := Except.ok.inj ((mean_of_copies hps).symm.trans hc)
  have hequals := Equals.of_reflected hx (ht.equals hnum) hz h
  rw [hlen] at hequals
  exact List.forall₂_same.mp (List.forall₂_map_right_iff.mp hequals)

end Point

end NelderMead
