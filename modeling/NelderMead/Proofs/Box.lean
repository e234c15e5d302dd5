import NelderMead.Constraint
import NelderMead.Proofs.InnerProduct

/-!
# Box constraints mean the box

Whether a point lies in a box is said twice: by comparing each coordinate with its limits, and by
linear constraints whose coefficients are zero but for one.  Both say the same, of every point of
the dimension of the box.  A coordinate that is not a number or infinite satisfies no constraint
where it meets the coefficient zero, and it lies in no box either.

* `LinearConstraint.lower_iff`, `LinearConstraint.upper_iff` — what the value of one side says.
* `Bounds.Decides` — what the values of all sides say.
* **`Bounds.constraints_decide`** — the values of the constraints of a box say it.
-/

namespace NelderMead

open Binary64

open Float.Model.UnpackedFloat (Sign)

/-! ## A coordinate as an inner product -/

/-- The products with the vector of an axis: the coordinate, and zeros times the others. -/
lemma perm_products_axisVector {x : Point} {i : ℕ} {xi : Float} (hxi : x[i]? = some xi)
    (a : Float) : (List.zipWith (· * ·) (Bounds.axisVector x.length i a) x).Perm
      (a * xi :: (x.eraseIdx i).map (0.0 * ·)) := by
  induction i generalizing x with
  | zero =>
    cases x with
    | nil => cases hxi
    | cons y x =>
      obtain rfl := Option.some.inj hxi
      have hzeros : List.zipWith (· * ·) (Point.zeros x.length) x = x.map (0.0 * ·) := by
        rw [Point.zeros, ← List.map_const', List.zipWith_map_left]
        exact List.zipWith_self
      exact List.Perm.of_eq (congrArg (a * y :: ·) hzeros)
  | succ i ih =>
    cases x with
    | nil => cases hxi
    | cons y x => exact ((ih hxi).cons (0.0 * y)).trans (List.Perm.swap _ _ _)

namespace LinearConstraint

/-- The value, where the dimensions agree. -/
def total (c : LinearConstraint) (x : Point) : Float :=
  Point.laneSum {} (List.zipWith (· * ·) c.a x) + c.b

lemma value_of_length {c : LinearConstraint} {x : Point} (h : c.a.length = x.length) :
    c.value x = .ok (c.total x) := by
  rw [value, Point.dot, Point.matching_of_eq _ h]
  rfl

section Sides

/-- All coordinates but one are finite. -/
def OthersFinite (x : Point) (i : ℕ) : Prop := ∀ y ∈ x.eraseIdx i, y.isFinite = true

/-- What those coordinates add to an inner product with the vector of an axis. -/
def others (x : Point) (i : ℕ) : Multiset Float :=
  Multiset.replicate 9 0.0 + Multiset.ofList ((x.eraseIdx i).map (0.0 * ·))

variable {x : Point} {i : ℕ} {xi : Float}

lemma zeros_of_othersFinite (h : OthersFinite x i) :
    ∀ z ∈ others x i, z.isNaN = false ∧ ticks z = 0 := by
  intro z hz
  rcases Multiset.mem_add.mp hz with hz | hz
  · obtain rfl := Multiset.eq_of_mem_replicate hz
    exact ticks_zero
  · obtain ⟨y, hy, rfl⟩ := List.mem_map.mp (Multiset.mem_coe.mp hz)
    have hprod := ticks_mul (isFinite_of_ticks_eq_zero ticks_zero.1 ticks_zero.2) (h y hy)
    rwa [ticks_zero.2, zero_mul, Int.zero_ediv, roundInt_zero] at hprod

variable {s : Sign} {a b : Float} (hxi : x[i]? = some xi)
  (ha : form a = .finite s (2 ^ 52) (-52) significand_pos) (hb : b.isFinite = true)

include hxi

lemma bracketed_axisVector (a : Float) :
    Bracketed (a * xi ::ₘ others x i)
      (Point.laneSum {} (List.zipWith (· * ·) (Bounds.axisVector x.length i a) x)) := by
  have h := Bracketed.laneSum (List.zipWith (· * ·) (Bounds.axisVector x.length i a) x)
  rwa [Multiset.coe_eq_coe.mpr (perm_products_axisVector hxi a), ← Multiset.cons_coe,
    Multiset.add_cons] at h

/-- **A side is blind** where the coordinate is not a number or another one is not finite. -/
lemma isNaN_total (h : ¬(xi.isNaN = false ∧ OthersFinite x i)) :
    (total ⟨Bounds.axisVector x.length i a, b⟩ x).isNaN = true := by
  have hsum := bracketed_axisVector hxi a
  refine isNaN_add (Or.inl ?_)
  rcases not_and_or.mp h with h | h
  · exact hsum.isNaN_of_mem (Multiset.mem_cons_self _ _)
      (isNaN_mul (Bool.eq_true_of_not_eq_false h))
  · simp only [OthersFinite, not_forall, Bool.not_eq_true] at h
    obtain ⟨y, hy, hinf⟩ := h
    have hmem : 0.0 * y ∈ (x.eraseIdx i).map (0.0 * ·) := List.mem_map_of_mem hy
    exact hsum.isNaN_of_mem
      (Multiset.mem_cons_of_mem (Multiset.mem_add.mpr (Or.inr (Multiset.mem_coe.mpr hmem))))
      (isNaN_zero_mul hinf)

include ha hb

/-- **Elsewhere a side tells** on which side of its limit the coordinate lies. -/
lemma zero_lt_ticks_total_iff (hnum : xi.isNaN = false) (hothers : OthersFinite x i) :
    (total ⟨Bounds.axisVector x.length i a, b⟩ x).isNaN = false ∧
      (0 < ticks (total ⟨Bounds.axisVector x.length i a, b⟩ x) ↔
        0 < s.apply 1 * ticks xi + ticks b) := by
  obtain ⟨hprod, hticks⟩ := ticks_unit_mul ha hnum
  obtain ⟨hdot, hsum⟩ :=
    (bracketed_axisVector hxi a).ticks_of_zeros hprod (zeros_of_othersFinite hothers)
  rw [← hticks, ← hsum]
  exact zero_lt_ticks_add_iff hdot hb

/-- **What the value of a side says.** -/
lemma total_iff :
    (total ⟨Bounds.axisVector x.length i a, b⟩ x ≤ 0.0 ↔
      xi.isNaN = false ∧ s.apply 1 * ticks xi + ticks b ≤ 0 ∧ OthersFinite x i) ∧
    (0.0 < total ⟨Bounds.axisVector x.length i a, b⟩ x ↔
      xi.isNaN = false ∧ 0 < s.apply 1 * ticks xi + ticks b ∧ OthersFinite x i) := by
  rw [le_iff, lt_iff, ticks_zero.2]
  by_cases h : xi.isNaN = false ∧ OthersFinite x i
  · obtain ⟨hnum, hsign⟩ := zero_lt_ticks_total_iff hxi ha hb h.1 h.2
    have hneg := not_congr hsign
    rw [not_lt, not_lt] at hneg
    exact ⟨⟨fun hle => ⟨h.1, hneg.mp hle.2.2, h.2⟩,
        fun hle => ⟨hnum, ticks_zero.1, hneg.mpr hle.2.1⟩⟩,
      ⟨fun hlt => ⟨h.1, hsign.mp hlt.2.2, h.2⟩, fun hlt => ⟨ticks_zero.1, hnum, hsign.mpr hlt.2.1⟩⟩⟩
  · have hnan := isNaN_total (a := a) (b := b) hxi h
    exact ⟨iff_of_false (fun hle => by rw [hnan] at hle; cases hle.1) fun hle => h ⟨hle.1, hle.2.2⟩,
      iff_of_false (fun hlt => by rw [hnan] at hlt; cases hlt.2.1) fun hlt => h ⟨hlt.1, hlt.2.2⟩⟩

end Sides

variable {x : Point} {i : ℕ} {xi : Float}

/-- **The lower side** compares the coordinate with the lower limit. -/
lemma lower_iff {l : Float} (hxi : x[i]? = some xi) (hl : l.isFinite = true) :
    (total ⟨Bounds.axisVector x.length i (-1.0), l⟩ x ≤ 0.0 ↔ l ≤ xi ∧ OthersFinite x i) ∧
      (0.0 < total ⟨Bounds.axisVector x.length i (-1.0), l⟩ x ↔ xi < l ∧ OthersFinite x i) := by
  have hnum := isNaN_of_isFinite hl
  have hle : (-1 : ℤ) * ticks xi + ticks l ≤ 0 ↔ ticks l ≤ ticks xi := by omega
  have hlt : 0 < (-1 : ℤ) * ticks xi + ticks l ↔ ticks xi < ticks l := by omega
  obtain ⟨hside, hside'⟩ := total_iff hxi form_neg_one hl
  rw [hside, hside', le_iff, lt_iff, Sign.apply, hle, hlt]
  simp only [hnum, true_and, and_assoc, and_self]

/-- **The upper side** compares it with the upper limit. -/
lemma upper_iff {u : Float} (hxi : x[i]? = some xi) (hu : u.isFinite = true) :
    (total ⟨Bounds.axisVector x.length i 1.0, -u⟩ x ≤ 0.0 ↔ xi ≤ u ∧ OthersFinite x i) ∧
      (0.0 < total ⟨Bounds.axisVector x.length i 1.0, -u⟩ x ↔ u < xi ∧ OthersFinite x i) := by
  have hnum := isNaN_of_isFinite hu
  have hle : (1 : ℤ) * ticks xi + -ticks u ≤ 0 ↔ ticks xi ≤ ticks u := by omega
  have hlt : 0 < (1 : ℤ) * ticks xi + -ticks u ↔ ticks u < ticks xi := by omega
  obtain ⟨hside, hside'⟩ := total_iff hxi form_one ((isFinite_neg_float u).trans hu)
  rw [hside, hside', le_iff, lt_iff, ticks_neg, Sign.apply, hle, hlt]
  simp only [hnum, true_and, and_assoc, and_self]

end LinearConstraint

/-! ## All sides -/

/-- A list of pairs, read by position. -/
lemma getElem?_flatMap_pair {α β : Type} (f g : α → β) (l : List α) (i : ℕ) :
    (l.flatMap fun a => [f a, g a])[2 * i]? = l[i]?.map f ∧
      (l.flatMap fun a => [f a, g a])[2 * i + 1]? = l[i]?.map g := by
  induction l generalizing i with
  | nil => exact ⟨rfl, rfl⟩
  | cons a l ih =>
    cases i with
    | zero => exact ⟨rfl, rfl⟩
    | succ i => exact ih i

lemma length_flatMap_pair {α β : Type} (f g : α → β) (l : List α) :
    (l.flatMap fun a => [f a, g a]).length = 2 * l.length := by
  induction l with
  | nil => rfl
  | cons a l ih =>
    rw [List.flatMap_cons, List.length_append, ih, List.length_cons, List.length_cons,
      List.length_cons, List.length_nil]
    omega

namespace Bounds

variable {b : Bounds} {x : Point}

lemma length_linearConstraints (b : Bounds) : b.linearConstraints.length = 2 * b.length := by
  have hzip : ((b.lower.zip b.upper).zipIdx).length = b.length := by
    rw [List.length_zipIdx, List.length_zip, b.length_upper, Nat.min_self]
    rfl
  rw [← hzip]
  exact length_flatMap_pair _ _ _

lemma getElem?_pairs {i : ℕ} {l u : Float} :
    ((b.lower.zip b.upper).zipIdx)[i]? = some ((l, u), i) ↔
      b.lower[i]? = some l ∧ b.upper[i]? = some u := by
  rw [List.getElem?_zipIdx, Nat.zero_add, Option.map_eq_some_iff]
  constructor
  · rintro ⟨p, hp, hpair⟩
    obtain rfl : p = (l, u) := congrArg Prod.fst hpair
    exact List.getElem?_zip_eq_some.mp hp
  · intro h
    exact ⟨(l, u), List.getElem?_zip_eq_some.mpr h, rfl⟩

/-- The two constraints for a coordinate. -/
lemma getElem?_linearConstraints {i : ℕ} {l u : Float} (hl : b.lower[i]? = some l)
    (hu : b.upper[i]? = some u) :
    b.linearConstraints[2 * i]? = some ⟨axisVector b.length i (-1.0), l⟩ ∧
      b.linearConstraints[2 * i + 1]? = some ⟨axisVector b.length i 1.0, -u⟩ := by
  have h := getElem?_flatMap_pair
    (fun p : (Float × Float) × ℕ => (⟨axisVector b.length p.2 (-1.0), p.1.1⟩ : LinearConstraint))
    (fun p => ⟨axisVector b.length p.2 1.0, -p.1.2⟩) ((b.lower.zip b.upper).zipIdx) i
  rwa [getElem?_pairs.mpr ⟨hl, hu⟩] at h

/-- **The constraints of a box** are the sides for its coordinates. -/
lemma forall_mem_linearConstraints {P : LinearConstraint → Prop} :
    (∀ c ∈ b.linearConstraints, P c) ↔
      ∀ i l u, b.lower[i]? = some l → b.upper[i]? = some u →
        P ⟨axisVector b.length i (-1.0), l⟩ ∧ P ⟨axisVector b.length i 1.0, -u⟩ := by
  constructor
  · intro h i l u hl hu
    obtain ⟨hlower, hupper⟩ := getElem?_linearConstraints hl hu
    exact ⟨h _ (List.mem_of_getElem? hlower), h _ (List.mem_of_getElem? hupper)⟩
  · intro h c hc
    obtain ⟨⟨⟨l, u⟩, i⟩, hp, hmem⟩ := List.mem_flatMap.mp hc
    obtain ⟨hl, hu⟩ := List.getElem?_zip_eq_some.mp (List.mem_zipIdx_iff_getElem?.mp hp)
    obtain ⟨hlower, hupper⟩ := h i l u hl hu
    rcases List.mem_pair.mp hmem with rfl | rfl
    · exact hlower
    · exact hupper

/-- Being in the box, coordinate by coordinate. -/
def Limits (b : Bounds) (x : Point) : Prop :=
  ∀ (i : ℕ) (xi l u : Float), x[i]? = some xi → b.lower[i]? = some l → b.upper[i]? = some u →
    l ≤ xi ∧ xi ≤ u

lemma contains_iff (hx : x.length = b.length) : b.contains x = true ↔ b.Limits x := by
  rw [contains, beq_iff_eq.mpr hx, Bool.true_and, List.all_eq_true]
  simp only [Bool.and_eq_true, decide_eq_true_iff]
  constructor
  · intro h i xi l u hxi hl hu
    exact h (xi, l, u) (List.mem_of_getElem? (i := i)
      (List.getElem?_zip_eq_some.mpr ⟨hxi, List.getElem?_zip_eq_some.mpr ⟨hl, hu⟩⟩))
  · rintro h ⟨xi, l, u⟩ hmem
    obtain ⟨i, hi⟩ := List.mem_iff_getElem?.mp hmem
    obtain ⟨hxi, hpair⟩ := List.getElem?_zip_eq_some.mp hi
    obtain ⟨hl, hu⟩ := List.getElem?_zip_eq_some.mp hpair
    exact h i xi l u hxi hl hu

/-- The limits are finite. -/
lemma isFinite_limits {i : ℕ} {l u : Float} (hl : b.lower[i]? = some l)
    (hu : b.upper[i]? = some u) : l.isFinite = true ∧ u.isFinite = true := by
  have hpair := b.isInterval_of_mem (l, u) (List.mem_of_getElem? (i := i)
    (List.getElem?_zip_eq_some.mpr ⟨hl, hu⟩))
  simp only [isInterval, Bool.and_eq_true] at hpair
  exact hpair.1

lemma exists_limits (hx : x.length = b.length) {i : ℕ} {xi : Float} (hxi : x[i]? = some xi) :
    ∃ l u, b.lower[i]? = some l ∧ b.upper[i]? = some u := by
  obtain ⟨hi, -⟩ := List.getElem?_eq_some_iff.mp hxi
  have hupper := b.length_upper
  have hlower : i < b.lower.length := lt_of_lt_of_eq hi hx
  exact ⟨_, _, List.getElem?_eq_getElem hlower, List.getElem?_eq_getElem (by omega)⟩

/-- A point in the box is finite. -/
lemma Limits.isFinite (hx : x.length = b.length) (h : b.Limits x) :
    ∀ y ∈ x, y.isFinite = true := by
  intro y hy
  obtain ⟨i, hxi⟩ := List.mem_iff_getElem?.mp hy
  obtain ⟨l, u, hl, hu⟩ := exists_limits hx hxi
  obtain ⟨hlower, hupper⟩ := h i y l u hxi hl hu
  obtain ⟨hfl, hfu⟩ := isFinite_limits hl hu
  exact isFinite_of_between hlower hupper hfl hfu

/-- **What the values of the constraints of a box say** of a point: all are met where the point is
in the box, and for a finite point each of them compares one coordinate with one limit. -/
structure Decides (b : Bounds) (x : Point) (gs : List Float) : Prop where
  satisfied_iff : (∀ g ∈ gs, g ≤ 0.0) ↔ b.contains x = true
  lower : (∀ y ∈ x, y.isFinite = true) → ∀ (i : ℕ) (xi l : Float), x[i]? = some xi →
    b.lower[i]? = some l → ∃ g, gs[2 * i]? = some g ∧ (0.0 < g ↔ xi < l)
  upper : (∀ y ∈ x, y.isFinite = true) → ∀ (i : ℕ) (xi u : Float), x[i]? = some xi →
    b.upper[i]? = some u → ∃ g, gs[2 * i + 1]? = some g ∧ (0.0 < g ↔ u < xi)

lemma satisfied_iff_contains (hx : x.length = b.length) :
    (∀ c ∈ b.linearConstraints, c.total x ≤ 0.0) ↔ b.contains x = true := by
  rw [contains_iff hx, forall_mem_linearConstraints, ← hx]
  constructor
  · intro h i xi l u hxi hl hu
    obtain ⟨hfl, hfu⟩ := isFinite_limits hl hu
    obtain ⟨hlower, hupper⟩ := h i l u hl hu
    exact ⟨((LinearConstraint.lower_iff hxi hfl).1.mp hlower).1,
      ((LinearConstraint.upper_iff hxi hfu).1.mp hupper).1⟩
  · intro h i l u hl hu
    obtain ⟨hfl, hfu⟩ := isFinite_limits hl hu
    obtain ⟨hi, -⟩ := List.getElem?_eq_some_iff.mp hl
    obtain ⟨xi, hxi⟩ : ∃ xi, x[i]? = some xi :=
      ⟨_, List.getElem?_eq_getElem (lt_of_lt_of_eq hi hx.symm)⟩
    obtain ⟨hlower, hupper⟩ := h i _ l u hxi hl hu
    have hothers : LinearConstraint.OthersFinite x i := fun y hy =>
      h.isFinite hx y (List.mem_of_mem_eraseIdx hy)
    exact ⟨(LinearConstraint.lower_iff hxi hfl).1.mpr ⟨hlower, hothers⟩,
      (LinearConstraint.upper_iff hxi hfu).1.mpr ⟨hupper, hothers⟩⟩

/-- The values say what the box says. -/
lemma decides_total (hx : x.length = b.length) :
    b.Decides x (b.linearConstraints.map (·.total x)) where
  satisfied_iff := by rw [List.forall_mem_map, satisfied_iff_contains hx]
  lower := by
    intro hfinite i xi l hxi hl
    obtain ⟨l', u, hl', hu⟩ := exists_limits hx hxi
    obtain rfl := Option.some.inj (hl.symm.trans hl')
    have hothers : LinearConstraint.OthersFinite x i := fun y hy =>
      hfinite y (List.mem_of_mem_eraseIdx hy)
    refine ⟨_, by rw [List.getElem?_map, (getElem?_linearConstraints hl hu).1]; rfl, ?_⟩
    rw [← hx, (LinearConstraint.lower_iff hxi (isFinite_limits hl hu).1).2, and_iff_left hothers]
  upper := by
    intro hfinite i xi u hxi hu
    obtain ⟨l, u', hl, hu'⟩ := exists_limits hx hxi
    obtain rfl := Option.some.inj (hu.symm.trans hu')
    have hothers : LinearConstraint.OthersFinite x i := fun y hy =>
      hfinite y (List.mem_of_mem_eraseIdx hy)
    refine ⟨_, by rw [List.getElem?_map, (getElem?_linearConstraints hl hu).2]; rfl, ?_⟩
    rw [← hx, (LinearConstraint.upper_iff hxi (isFinite_limits hl hu).2).2, and_iff_left hothers]

/-- A side has a value at every point of the dimension of the box. -/
lemma run_evaluate_side {σ : Type} (hx : x.length = b.length) (i : ℕ) (a c : Float) (w : σ) :
    ((Constraint.linear ⟨axisVector b.length i a, c⟩).evaluate x).run w =
      (.ok (LinearConstraint.total ⟨axisVector b.length i a, c⟩ x), w) := by
  have hlen : (axisVector b.length i a).length = x.length := by
    rw [axisVector, List.length_set, Point.length_zeros, hx]
  rw [Constraint.evaluate, LinearConstraint.value_of_length hlen]
  rfl

/-- **Box constraints mean the box.**  There are two for each coordinate, and at a point of the
dimension of the box each of them has a value and leaves the world alone; all values are at most
zero just where the box contains the point. -/
theorem constraints_decide (σ : Type) (b : Bounds) (x : Point) (hx : x.length = b.length) :
    (b.constraints σ).length = 2 * b.length ∧
      ∃ gs, List.Forall₂ (fun c g => ∀ w, (c.evaluate x).run w = (.ok g, w)) (b.constraints σ) gs ∧
        b.Decides x gs := by
  refine ⟨?_, _, ?_, decides_total hx⟩
  · rw [constraints, List.length_map, length_linearConstraints]
  · have hvalue : ∀ c ∈ b.linearConstraints, ∀ w : σ,
        ((Constraint.linear c).evaluate x).run w = (.ok (c.total x), w) :=
      forall_mem_linearConstraints.mpr fun i _ _ _ _ =>
        ⟨run_evaluate_side hx i _ _, run_evaluate_side hx i _ _⟩
    rw [constraints, List.forall₂_map_left_iff, List.forall₂_map_right_iff]
    exact List.forall₂_same.mpr hvalue

/-- A box of dimension two. -/
def strip : Bounds := ⟨[0.0, -1.0], [4.0, 1.0], rfl, List.cons_ne_nil _ _, by decide +kernel⟩

theorem constraints_decide_strip : ([5.0, 0.0] : Point).length = strip.length ∧
    (strip.constraints Unit).length = 2 * strip.length ∧
    ∃ gs, List.Forall₂ (fun c g => ∀ w, (c.evaluate [5.0, 0.0]).run w = (.ok g, w))
        (strip.constraints Unit) gs ∧
      strip.Decides [5.0, 0.0] gs :=
  ⟨rfl, strip.constraints_decide Unit [5.0, 0.0] rfl⟩

end Bounds

end NelderMead
