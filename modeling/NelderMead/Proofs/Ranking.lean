import NelderMead.Ranking
import NelderMead.Proofs.Binary64.Ticks
import Mathlib.Algebra.BigOperators.Group.List.Basic
import Mathlib.Algebra.Order.BigOperators.Group.List
import Mathlib.Data.List.Forall2

/-!
# Ranks are keys

Every value has an integer *key*: a number its ticks, and all that are not numbers one key behind
infinity.  The ranking of values is the order of their keys, so nothing has to be said about values
that are not numbers once the keys are taken.

* **`rankCmp_eq_compare`** — the ranking is the order of keys.
* `ranked` — some values from the best to the worst; **`ranked_sorted`**, `ranked_perm`.
* `RankedBefore`, **`rankOrder_stable`** — values that rank alike keep their order.
* `rankOrder_of_sorted` — values that are sorted keep their positions.
* **`ranked_mono`** — making values better one by one makes the ranked values better one by one.
* `SameRanks` — the same values up to rank, in any order.
* `keySum` — the sum of keys, which is less where a value is better and no other is worse.
* `getElem?_ranked` — the positions that `rankOrder` lists are those of the ranked values;
  `rankKey_le_of_rank` says that they are in the order of their keys.
* **`rankOrder_congr`** — values that compare alike are ranked alike.
-/

namespace NelderMead

open Binary64

/-! ## Keys -/

/-- **The key of a value.** -/
def rankKey (x : Float) : ℤ := if x.isNaN = true then infinite + 1 else ticks x

lemma rankKey_of_isNaN {x : Float} (h : x.isNaN = true) : rankKey x = infinite + 1 := if_pos h

lemma rankKey_of_number {x : Float} (h : x.isNaN = false) : rankKey x = ticks x :=
  if_neg (by rw [h]; exact Bool.false_ne_true)

lemma ticks_le_infinite (x : Float) : ticks x ≤ infinite :=
  (abs_le.mp (abs_ticksOf_le (canonical_form x))).2

/-- Numbers are the values with a key before the last. -/
lemma isNaN_eq_false_iff (x : Float) : x.isNaN = false ↔ rankKey x ≤ infinite := by
  have hticks := ticks_le_infinite x
  rcases hx : x.isNaN with _ | _
  · rw [rankKey_of_number hx]
    exact iff_of_true rfl hticks
  · rw [rankKey_of_isNaN hx]
    exact iff_of_false Bool.false_ne_true.symm (by omega)

lemma le_iff_rankKey (x y : Float) : x ≤ y ↔ y.isNaN = false ∧ rankKey x ≤ rankKey y := by
  rw [le_iff]
  constructor
  · rintro ⟨hx, hy, hle⟩
    rw [rankKey_of_number hx, rankKey_of_number hy]
    exact ⟨hy, hle⟩
  · rintro ⟨hy, hle⟩
    have hx := (isNaN_eq_false_iff x).mpr (hle.trans ((isNaN_eq_false_iff y).mp hy))
    rw [rankKey_of_number hx, rankKey_of_number hy] at hle
    exact ⟨hx, hy, hle⟩

lemma lt_iff_rankKey (x y : Float) : x < y ↔ y.isNaN = false ∧ rankKey x < rankKey y := by
  rw [lt_iff]
  constructor
  · rintro ⟨hx, hy, hlt⟩
    rw [rankKey_of_number hx, rankKey_of_number hy]
    exact ⟨hy, hlt⟩
  · rintro ⟨hy, hlt⟩
    have hx := (isNaN_eq_false_iff x).mpr (hlt.le.trans ((isNaN_eq_false_iff y).mp hy))
    rw [rankKey_of_number hx, rankKey_of_number hy] at hlt
    exact ⟨hx, hy, hlt⟩

/-- A number is before whatever is not less than it. -/
lemma rankKey_le_of_not_lt {x y : Float} (hy : y.isNaN = false) (h : ¬x < y) :
    rankKey y ≤ rankKey x := by
  rw [lt_iff_rankKey] at h
  by_contra hlt
  exact h ⟨hy, not_le.mp hlt⟩

lemma compareNumbers_eq {x y : Float} (hx : x.isNaN = false) (hy : y.isNaN = false) :
    compareNumbers x y = some (compare (rankKey x) (rankKey y)) := by
  have hbeq : (x == y) = true ↔ rankKey x = rankKey y := by
    rw [beq_iff, rankKey_of_number hx, rankKey_of_number hy, and_iff_right hx, and_iff_right hy]
  rw [compareNumbers]
  simp only [lt_iff_rankKey, hx, hy, true_and, hbeq]
  rcases lt_trichotomy (rankKey x) (rankKey y) with h | h | h
  · rw [if_pos h, Int.compare_eq_lt.mpr h]
  · rw [if_neg (by omega), if_neg (by omega), if_pos h, Int.compare_eq_eq.mpr h]
  · rw [if_neg (by omega), if_pos h, Int.compare_eq_gt.mpr h]

/-- **The ranking is the order of keys.** -/
theorem rankCmp_eq_compare (x y : Float) : rankCmp x y = compare (rankKey x) (rankKey y) := by
  rcases hx : x.isNaN with _ | _ <;> rcases hy : y.isNaN with _ | _ <;>
    simp only [rankCmp, hx, hy]
  · rw [compareNumbers_eq hx hy, Option.getD_some]
  · have hle := (isNaN_eq_false_iff x).mp hx
    rw [rankKey_of_isNaN hy, Int.compare_eq_lt.mpr (by omega)]
  · have hle := (isNaN_eq_false_iff y).mp hy
    rw [rankKey_of_isNaN hx, Int.compare_eq_gt.mpr (by omega)]
  · rw [rankKey_of_isNaN hx, rankKey_of_isNaN hy, Int.compare_eq_eq.mpr rfl]

lemma rankCmp_eq_lt_iff (x y : Float) : rankCmp x y = .lt ↔ rankKey x < rankKey y := by
  rw [rankCmp_eq_compare, Int.compare_eq_lt]

lemma rankCmp_eq_eq_iff (x y : Float) : rankCmp x y = .eq ↔ rankKey x = rankKey y := by
  rw [rankCmp_eq_compare, Int.compare_eq_eq]

lemma rankCmp_ne_gt_iff (x y : Float) : rankCmp x y ≠ .gt ↔ rankKey x ≤ rankKey y := by
  rw [rankCmp_eq_compare, Ne, Int.compare_eq_gt, not_lt]

/-! ## Sorted values -/

/-- **Some values from the best to the worst**, in the order that `rankOrder` gives them. -/
def ranked (values : List Float) : List Float := (rankedFrom values.zipIdx).map (·.1)

lemma ranked_perm (values : List Float) : (ranked values).Perm values := by
  have h := (rankedFrom_perm values.zipIdx).map (·.1)
  rwa [List.zipIdx_map_fst] at h

/-- **The first value is ranked before the second**, each with its position: by their ranks, and by
their positions if they rank alike. -/
def RankedBefore (a b : Float × ℕ) : Prop :=
  rankCmp a.1 b.1 = .lt ∨ rankCmp a.1 b.1 = .eq ∧ a.2 < b.2

lemma RankedBefore.key_le {a b : Float × ℕ} (h : RankedBefore a b) :
    rankKey a.1 ≤ rankKey b.1 := by
  rcases h with hlt | ⟨heq, -⟩
  · exact ((rankCmp_eq_lt_iff _ _).mp hlt).le
  · exact ((rankCmp_eq_eq_iff _ _).mp heq).le

/-- What comes first is ranked before whatever it does not rank behind. -/
lemma rankedBefore_of_le {a b : Float × ℕ} (hkey : rankKey a.1 ≤ rankKey b.1) (hlt : a.2 < b.2) :
    RankedBefore a b := by
  rcases hkey.lt_or_eq with hkey | hkey
  · exact Or.inl ((rankCmp_eq_lt_iff _ _).mpr hkey)
  · exact Or.inr ⟨(rankCmp_eq_eq_iff _ _).mpr hkey, hlt⟩

lemma insertRanked_stable {v : Float × ℕ} {ws : List (Float × ℕ)} (hv : ∀ w ∈ ws, v.2 < w.2)
    (h : ws.Pairwise RankedBefore) : (insertRanked v ws).Pairwise RankedBefore := by
  induction ws with
  | nil => exact List.pairwise_singleton _ _
  | cons w ws ih =>
    obtain ⟨hw, hws⟩ := List.pairwise_cons.mp h
    obtain ⟨hvw, hvws⟩ := List.forall_mem_cons.mp hv
    rw [insertRanked]
    split_ifs with hcmp
    · rw [rankCmp_eq_compare, Int.compare_eq_gt] at hcmp
      refine List.pairwise_cons.mpr ⟨fun b hb => ?_, ih hvws hws⟩
      rcases List.mem_cons.mp ((insertRanked_perm v ws).mem_iff.mp hb) with rfl | hb
      · exact Or.inl ((rankCmp_eq_lt_iff _ _).mpr hcmp)
      · exact hw b hb
    · have hle := (rankCmp_ne_gt_iff v.1 w.1).mp hcmp
      refine List.pairwise_cons.mpr ⟨fun b hb => ?_, h⟩
      rcases List.mem_cons.mp hb with rfl | hb
      · exact rankedBefore_of_le hle hvw
      · exact rankedBefore_of_le (hle.trans (hw b hb).key_le) (hvws b hb)

/-- Values that rank alike keep their order. -/
lemma rankedFrom_stable {vs : List (Float × ℕ)} (h : vs.Pairwise fun a b => a.2 < b.2) :
    (rankedFrom vs).Pairwise RankedBefore := by
  induction h with
  | nil => exact List.Pairwise.nil
  | @cons v vs hv _ ih =>
    exact insertRanked_stable (fun w hw => hv w ((rankedFrom_perm vs).mem_iff.mp hw)) ih

lemma rankedFrom_zipIdx_stable (values : List Float) :
    (rankedFrom values.zipIdx).Pairwise RankedBefore := by
  have hpositions : (values.zipIdx.map (·.2)).Pairwise (· < ·) := by
    rw [List.zipIdx_map_snd]
    exact List.pairwise_lt_range'
  exact rankedFrom_stable (List.pairwise_map.mp hpositions)

/-- **Ranked values are in the order of their keys.** -/
theorem ranked_sorted (values : List Float) :
    ((ranked values).map rankKey).Pairwise (· ≤ ·) := by
  rw [ranked, List.map_map]
  exact List.pairwise_map.mpr ((rankedFrom_zipIdx_stable values).imp RankedBefore.key_le)

/-- **The order of ranks is stable.**  Each listed position is ranked before those behind it. -/
theorem rankOrder_stable (values : List Float) : (rankOrder values).Pairwise fun a b =>
    ∃ x y, values[a]? = some x ∧ values[b]? = some y ∧ RankedBefore (x, a) (y, b) := by
  have hvalue : ∀ a ∈ rankedFrom values.zipIdx, values[a.2]? = some a.1 := fun a ha =>
    List.mem_zipIdx_iff_getElem?.mp ((rankedFrom_perm values.zipIdx).mem_iff.mp ha)
  refine List.pairwise_map.mpr ((rankedFrom_zipIdx_stable values).imp_of_mem ?_)
  intro a b ha hb hab
  exact ⟨a.1, b.1, hvalue a ha, hvalue b hb, hab⟩

lemma rankedFrom_of_sorted {vs : List (Float × ℕ)}
    (h : vs.Pairwise fun a b => rankCmp a.1 b.1 ≠ .gt) : rankedFrom vs = vs := by
  induction h with
  | nil => rfl
  | @cons v vs hv _ ih =>
    rw [rankedFrom, ih]
    cases vs with
    | nil => rfl
    | cons w vs => exact if_neg (hv w List.mem_cons_self)

/-- **Sorted values keep their positions**, those of one rank among them. -/
theorem rankOrder_of_sorted {values : List Float}
    (h : values.Pairwise fun x y => rankCmp x y ≠ .gt) :
    rankOrder values = List.range values.length := by
  have hzip : values.zipIdx.Pairwise fun a b => rankCmp a.1 b.1 ≠ .gt := by
    rw [← List.zipIdx_map_fst 0 values] at h
    exact List.pairwise_map.mp h
  rw [rankOrder, rankedFrom_of_sorted hzip, List.zipIdx_map_snd, ← List.range_eq_range']

/-! ## Better values, better ranks -/

/-- An entry of a sorted list is at most `t` if more entries than its position are. -/
lemma le_iff_lt_countP {l : List ℤ} (hsorted : l.Pairwise (· ≤ ·)) {i : ℕ} (hi : i < l.length)
    (t : ℤ) : l[i] ≤ t ↔ i < l.countP (· ≤ t) := by
  induction l generalizing i with
  | nil => exact absurd hi (Nat.not_lt_zero i)
  | cons a l ih =>
    obtain ⟨ha, hl⟩ := List.pairwise_cons.mp hsorted
    by_cases hat : a ≤ t
    · rw [List.countP_cons_of_pos (by simpa using hat)]
      cases i with
      | zero => exact iff_of_true hat (Nat.succ_pos _)
      | succ i =>
        rw [List.getElem_cons_succ, ih hl (Nat.lt_of_succ_lt_succ hi)]
        omega
    · have hnone : (a :: l).countP (· ≤ t) = 0 := by
        rw [List.countP_eq_zero]
        intro b hb
        rcases List.mem_cons.mp hb with rfl | hb
        · simpa using hat
        · have hab := ha b hb
          simp only [decide_eq_true_eq]
          omega
      rw [hnone]
      refine iff_of_false (fun hle => hat ?_) (Nat.not_lt_zero i)
      rcases List.mem_cons.mp (List.getElem_mem hi) with heq | hmem
      · exact heq ▸ hle
      · exact (ha _ hmem).trans hle

lemma countP_le_of_forall₂ {xs ys : List ℤ} (h : List.Forall₂ (· ≤ ·) xs ys) (t : ℤ) :
    ys.countP (· ≤ t) ≤ xs.countP (· ≤ t) := by
  induction h with
  | nil => exact le_rfl
  | cons hxy _ ih =>
    rw [List.countP_cons, List.countP_cons]
    simp only [decide_eq_true_eq]
    split_ifs <;> omega

/-- Sorting keeps a comparison entry by entry. -/
lemma forall₂_of_sorted {xs ys us vs : List ℤ} (h : List.Forall₂ (· ≤ ·) xs ys)
    (hu : us.Perm xs) (hv : vs.Perm ys) (hus : us.Pairwise (· ≤ ·)) (hvs : vs.Pairwise (· ≤ ·)) :
    List.Forall₂ (· ≤ ·) us vs := by
  have hlen : us.length = vs.length := by
    rw [hu.length_eq, hv.length_eq, h.length_eq]
  refine List.forall₂_iff_get.mpr ⟨hlen, fun i hi hi' => ?_⟩
  have hcount := countP_le_of_forall₂ h vs[i]
  rw [← hu.countP_eq, ← hv.countP_eq] at hcount
  have hlt := (le_iff_lt_countP hvs hi' vs[i]).mp le_rfl
  exact (le_iff_lt_countP hus hi _).mpr (hlt.trans_le hcount)

lemma forall₂_map_rankKey {R : Float → Float → Prop} {r : ℤ → ℤ → Prop}
    (h : ∀ x y, R x y ↔ r (rankKey x) (rankKey y)) (xs ys : List Float) :
    List.Forall₂ R xs ys ↔ List.Forall₂ r (xs.map rankKey) (ys.map rankKey) := by
  rw [List.forall₂_map_left_iff, List.forall₂_map_right_iff]
  exact ⟨List.Forall₂.imp fun x y => (h x y).mp, List.Forall₂.imp fun x y => (h x y).mpr⟩

/-- **Making values better one by one** makes the ranked values better one by one. -/
theorem ranked_mono {xs ys : List Float} (h : List.Forall₂ (fun x y => rankCmp x y ≠ .gt) xs ys) :
    List.Forall₂ (fun x y => rankCmp x y ≠ .gt) (ranked xs) (ranked ys) := by
  rw [forall₂_map_rankKey rankCmp_ne_gt_iff] at h ⊢
  exact forall₂_of_sorted h ((ranked_perm xs).map rankKey) ((ranked_perm ys).map rankKey)
    (ranked_sorted xs) (ranked_sorted ys)

/-- Values that rank no worse one by one have no more among them that are not numbers. -/
lemma countP_isNaN_le {xs ys : List Float}
    (h : List.Forall₂ (fun x y => rankCmp x y ≠ .gt) xs ys) :
    xs.countP (·.isNaN) ≤ ys.countP (·.isNaN) := by
  induction h with
  | nil => exact le_rfl
  | @cons x y xs ys hxy _ ih =>
    rw [rankCmp_ne_gt_iff] at hxy
    rw [List.countP_cons, List.countP_cons]
    rcases hy : y.isNaN with _ | _
    · have hx := (isNaN_eq_false_iff x).mpr (hxy.trans ((isNaN_eq_false_iff y).mp hy))
      rw [hx, if_neg Bool.false_ne_true]
      exact ih
    · rw [if_pos rfl]
      split_ifs <;> omega

/-! ## The same values up to rank -/

/-- **The same values, each as often**, where values of one rank count as the same. -/
def SameRanks (xs ys : List Float) : Prop :=
  ∃ zs, zs.Perm ys ∧ List.Forall₂ (fun x z => rankCmp x z = .eq) xs zs

/-- The sum of the keys of some values. -/
def keySum (values : List Float) : ℤ := (values.map rankKey).sum

lemma SameRanks.keySum_eq {xs ys : List Float} (h : SameRanks xs ys) : keySum xs = keySum ys := by
  obtain ⟨zs, hperm, heq⟩ := h
  rw [forall₂_map_rankKey rankCmp_eq_eq_iff, List.forall₂_eq_eq_eq] at heq
  rw [keySum, heq]
  exact (hperm.map rankKey).sum_eq

lemma keySum_mono {xs ys : List Float} (h : List.Forall₂ (fun x y => rankCmp x y ≠ .gt) xs ys) :
    keySum xs ≤ keySum ys := by
  rw [forall₂_map_rankKey rankCmp_ne_gt_iff] at h
  exact h.sum_le_sum

/-- Taking a better value for one of some lessens the sum of keys. -/
lemma keySum_set_lt {values : List Float} {i : ℕ} {x y : Float} (hi : values[i]? = some y)
    (hlt : rankKey x < rankKey y) : keySum (values.set i x) < keySum values := by
  obtain ⟨hi, rfl⟩ := List.getElem?_eq_some_iff.mp hi
  have hi' : i < (values.map rankKey).length := by rwa [List.length_map]
  rw [keySum, keySum, List.map_set, List.sum_set', dif_pos hi', List.getElem_map]
  omega

/-! ## Positions -/

/-- A listed position is that of the value of its rank. -/
lemma getElem?_ranked {values : List Float} {i slot : ℕ}
    (h : (rankOrder values)[i]? = some slot) : (ranked values)[i]? = values[slot]? := by
  rw [rankOrder, List.getElem?_map, Option.map_eq_some_iff] at h
  obtain ⟨⟨x, k⟩, hget, rfl⟩ := h
  have hmem := (rankedFrom_perm values.zipIdx).mem_iff.mp (List.mem_of_getElem? hget)
  rw [ranked, List.getElem?_map, hget, List.mem_zipIdx_iff_getElem?.mp hmem, Option.map_some]

lemma rankKey_le_of_rank {values : List Float} {i k a b : ℕ} {x y : Float} (hik : i ≤ k)
    (ha : (rankOrder values)[i]? = some a) (hb : (rankOrder values)[k]? = some b)
    (hx : values[a]? = some x) (hy : values[b]? = some y) : rankKey x ≤ rankKey y := by
  rw [← getElem?_ranked ha] at hx
  rw [← getElem?_ranked hb] at hy
  obtain ⟨hi, rfl⟩ := List.getElem?_eq_some_iff.mp hx
  obtain ⟨hk, rfl⟩ := List.getElem?_eq_some_iff.mp hy
  rcases Nat.eq_or_lt_of_le hik with rfl | hlt
  · exact le_rfl
  · exact List.pairwise_iff_getElem.mp (List.pairwise_map.mp (ranked_sorted values)) i k hi hk hlt

lemma exists_rank {values : List Float} {slot : ℕ} (h : slot < values.length) :
    ∃ i < values.length, (rankOrder values)[i]? = some slot := by
  have hmem : slot ∈ rankOrder values :=
    (rankOrder_perm values).mem_iff.mpr (List.mem_range.mpr h)
  obtain ⟨i, hi, rfl⟩ := List.getElem_of_mem hmem
  exact ⟨i, by rwa [length_rankOrder] at hi, List.getElem?_eq_getElem hi⟩

lemma rank_unique {values : List Float} {i k slot : ℕ} (hi : (rankOrder values)[i]? = some slot)
    (hk : (rankOrder values)[k]? = some slot) : i = k := by
  have hnodup : (rankOrder values).Nodup := (rankOrder_perm values).nodup_iff.mpr List.nodup_range
  exact (List.getElem?_inj (List.getElem?_eq_some_iff.mp hi).1 hnodup).mp (hi.trans hk.symm)

/-! ## Values that compare alike -/

lemma le_iff_not_lt (x y : Float) : x ≤ y ↔ x.isNaN = false ∧ y.isNaN = false ∧ ¬y < x := by
  rw [le_iff, lt_iff]
  refine and_congr_right fun hx => and_congr_right fun hy => ?_
  rw [and_iff_right hx, and_iff_right hy, not_lt]

/-- **Two pairs compare alike** if `<` and `isNaN` do not tell them apart. -/
structure CompareAlike (x y x' y' : Float) : Prop where
  lt : x < y ↔ x' < y'
  gt : y < x ↔ y' < x'
  isNaN_left : x.isNaN = x'.isNaN
  isNaN_right : y.isNaN = y'.isNaN

namespace CompareAlike

variable {x y x' y' : Float}

lemma le (h : CompareAlike x y x' y') : x ≤ y ↔ x' ≤ y' := by
  rw [le_iff_not_lt, le_iff_not_lt, h.isNaN_left, h.isNaN_right, h.gt]

lemma rankCmp_eq (h : CompareAlike x y x' y') : rankCmp x y = rankCmp x' y' := by
  have hnumbers : ∀ a b : Float, (compareNumbers a b).getD .eq =
      if a < b then .lt else if b < a then .gt else .eq := by
    intro a b
    rw [compareNumbers]
    split_ifs <;> rfl
  rw [rankCmp, rankCmp, h.isNaN_left, h.isNaN_right]
  simp only [hnumbers, h.lt, h.gt]

end CompareAlike

/-- **The relation keeps comparisons**: related values compare alike. -/
def KeepsComparisons (R : Float → Float → Prop) : Prop :=
  ∀ ⦃x x' y y'⦄, R x x' → R y y' → CompareAlike x y x' y'

section Positions

variable {R : Float → Float → Prop} (hR : KeepsComparisons R)

include hR

lemma insertRanked_forall₂ {v w : Float × ℕ} {vs ws : List (Float × ℕ)}
    (hvw : R v.1 w.1 ∧ v.2 = w.2) (h : List.Forall₂ (fun a b => R a.1 b.1 ∧ a.2 = b.2) vs ws) :
    List.Forall₂ (fun a b : Float × ℕ => R a.1 b.1 ∧ a.2 = b.2) (insertRanked v vs)
      (insertRanked w ws) := by
  induction h with
  | nil => exact .cons hvw .nil
  | cons hab hrest ih =>
    rw [insertRanked, insertRanked, (hR hvw.1 hab.1).rankCmp_eq]
    split_ifs
    · exact .cons hab ih
    · exact .cons hvw (.cons hab hrest)

lemma rankedFrom_forall₂ {vs ws : List (Float × ℕ)}
    (h : List.Forall₂ (fun a b => R a.1 b.1 ∧ a.2 = b.2) vs ws) :
    List.Forall₂ (fun a b : Float × ℕ => R a.1 b.1 ∧ a.2 = b.2) (rankedFrom vs)
      (rankedFrom ws) := by
  induction h with
  | nil => exact .nil
  | cons hab hrest ih => exact insertRanked_forall₂ hR hab ih

/-- **Values that compare alike are ranked alike.** -/
theorem rankOrder_congr {xs ys : List Float} (h : List.Forall₂ R xs ys) :
    rankOrder xs = rankOrder ys := by
  have hzip : ∀ i, List.Forall₂ (fun a b : Float × ℕ => R a.1 b.1 ∧ a.2 = b.2) (xs.zipIdx i)
      (ys.zipIdx i) := by
    induction h with
    | nil => exact fun i => .nil
    | cons hxy hrest ih => exact fun i => .cons ⟨hxy, rfl⟩ (ih (i + 1))
  have hranked := rankedFrom_forall₂ hR (hzip 0)
  rw [rankOrder, rankOrder, ← List.forall₂_eq_eq_eq, List.forall₂_map_left_iff,
    List.forall₂_map_right_iff]
  exact hranked.imp fun _ _ hab => hab.2

end Positions

end NelderMead
