import Mathlib.Data.Multiset.Count
import Mathlib.Tactic.Abel
import NelderMead.Point
import NelderMead.Proofs.Binary64.Order

/-!
# Sums in any order

An inner product is summed in lanes, so its bracketing depends on the dimension.  Two things that
are true of every bracketing are enough to read it: a summand that is not a number spoils the sum,
and a sum of zeros with one other number among them is that number, up to the sign of zero.

* `Bracketed` — the values that some bracketing of some summands yields.
* `Bracketed.laneSum` — the sum in lanes is one of them.
* **`Bracketed.isNaN_of_mem`** — a summand that is not a number.
* **`Bracketed.ticks_of_lone`**, `Bracketed.ticks_of_zeros` — no rounding where at most one summand
  is not zero.
-/

namespace NelderMead

open Binary64

/-- **The values of a sum**, whatever the order of the summands and the brackets. -/
inductive Bracketed : Multiset Float → Float → Prop where
  | single (x : Float) : Bracketed {x} x
  | add {s t : Multiset Float} {x y : Float} (hx : Bracketed s x) (hy : Bracketed t y) :
    Bracketed (s + t) (x + y)

namespace Bracketed

/-! ## Summing in lanes -/

lemma foldl {s : Multiset Float} {x : Float} (h : Bracketed s x) (ps : List Float) :
    Bracketed (s + ps) (ps.foldl (· + ·) x) := by
  induction ps generalizing s x with
  | nil => rwa [Multiset.coe_nil, add_zero]
  | cons p ps ih =>
    have hstep := ih (h.add (single p))
    rwa [add_assoc, Multiset.singleton_add, Multiset.cons_coe] at hstep

section Lanes

variable {l : Point.Lanes} {t0 t1 t2 t3 t4 t5 t6 t7 : Multiset Float}

/-- The sum in lanes, where the lanes are sums themselves. -/
lemma laneSum_of_lanes (h0 : Bracketed t0 l.s0) (h1 : Bracketed t1 l.s1) (h2 : Bracketed t2 l.s2)
    (h3 : Bracketed t3 l.s3) (h4 : Bracketed t4 l.s4) (h5 : Bracketed t5 l.s5)
    (h6 : Bracketed t6 l.s6) (h7 : Bracketed t7 l.s7) (ps : List Float) :
    Bracketed ({0.0} + (t0 + t1 + t2 + t3 + t4 + t5 + t6 + t7) + ps) (Point.laneSum l ps) := by
  induction l, ps using Point.laneSum.induct generalizing t0 t1 t2 t3 t4 t5 t6 t7 with
  | case1 l p0 p1 p2 p3 p4 p5 p6 p7 ps ih =>
    have hsplit : ((p0 :: p1 :: p2 :: p3 :: p4 :: p5 :: p6 :: p7 :: ps : List Float) :
        Multiset Float) = {p0} + {p1} + {p2} + {p3} + {p4} + {p5} + {p6} + {p7} + ps := by
      simp only [← Multiset.cons_coe, ← Multiset.singleton_add, add_assoc]
    have hstep := ih (h0.add (single p0)) (h1.add (single p1)) (h2.add (single p2))
      (h3.add (single p3)) (h4.add (single p4)) (h5.add (single p5)) (h6.add (single p6))
      (h7.add (single p7))
    rw [Point.laneSum, hsplit]
    convert hstep using 1
    abel
  | case2 l ps hshort =>
    have htotal : Bracketed _ l.total :=
      ((((single 0.0).add (h0.add h4)).add (h1.add h5)).add (h2.add h6)).add (h3.add h7)
    have hsum : Point.laneSum l ps = ps.foldl (· + ·) l.total := by
      rw [Point.laneSum]
      exact hshort
    rw [hsum]
    convert htotal.foldl ps using 1
    abel

end Lanes

/-- **The sum in lanes** is a sum of the entries and nine zeros. -/
theorem laneSum (ps : List Float) :
    Bracketed (Multiset.replicate 9 0.0 + (ps : Multiset Float)) (Point.laneSum {} ps) := by
  have hzero := single 0.0
  exact laneSum_of_lanes (l := {}) hzero hzero hzero hzero hzero hzero hzero hzero ps

/-! ## What is true of all of them -/

variable {s : Multiset Float} {x : Float}

/-- **A summand that is not a number** leaves no number. -/
theorem isNaN_of_mem (h : Bracketed s x) {p : Float} (hp : p ∈ s) (hnan : p.isNaN = true) :
    x.isNaN = true := by
  induction h with
  | single x => rwa [Multiset.mem_singleton.mp hp] at hnan
  | add _ _ ihx ihy =>
    rcases Multiset.mem_add.mp hp with hp | hp
    · exact isNaN_add (Or.inl (ihx hp))
    · exact isNaN_add (Or.inr (ihy hp))

/-- The number of summands that are not zero. -/
def nonzeros (s : Multiset Float) : ℕ := s.countP (ticks · ≠ 0)

lemma sum_ticks_of_zeros (h : nonzeros s = 0) : (s.map ticks).sum = 0 := by
  refine Multiset.sum_eq_zero fun z hz => ?_
  obtain ⟨p, hp, rfl⟩ := Multiset.mem_map.mp hz
  exact not_not.mp (Multiset.countP_eq_zero.mp h p hp)

/-- **A sum of numbers** of which at most one is not zero is exact. -/
theorem ticks_of_lone (h : Bracketed s x) (hnum : ∀ p ∈ s, p.isNaN = false)
    (hlone : nonzeros s ≤ 1) : x.isNaN = false ∧ ticks x = (s.map ticks).sum := by
  induction h with
  | single x =>
    rw [Multiset.map_singleton, Multiset.sum_singleton]
    exact ⟨hnum x (Multiset.mem_singleton_self x), rfl⟩
  | @add s t x y _ _ ihx ihy =>
    have hcount : nonzeros (s + t) = nonzeros s + nonzeros t := Multiset.countP_add _ _ _
    rw [hcount] at hlone
    obtain ⟨hx, htx⟩ := ihx (fun p hp => hnum p (Multiset.mem_add.mpr (Or.inl hp)))
      ((Nat.le_add_right _ _).trans hlone)
    obtain ⟨hy, hty⟩ := ihy (fun p hp => hnum p (Multiset.mem_add.mpr (Or.inr hp)))
      ((Nat.le_add_left _ _).trans hlone)
    rw [Multiset.map_add, Multiset.sum_add, ← htx, ← hty]
    rcases (by omega : nonzeros s = 0 ∨ nonzeros t = 0) with hs | ht
    · have hzero : ticks x = 0 := htx.trans (sum_ticks_of_zeros hs)
      obtain ⟨hsum, hticks⟩ := ticks_zero_add hx hzero hy
      exact ⟨hsum, by rw [hticks, hzero, zero_add]⟩
    · have hzero : ticks y = 0 := hty.trans (sum_ticks_of_zeros ht)
      obtain ⟨hsum, hticks⟩ := ticks_add_zero hx hy hzero
      exact ⟨hsum, by rw [hticks, hzero, add_zero]⟩

/-- **One number among zeros** is their sum. -/
theorem ticks_of_zeros {p : Float} (h : Bracketed (p ::ₘ s) x) (hp : p.isNaN = false)
    (hs : ∀ q ∈ s, q.isNaN = false ∧ ticks q = 0) : x.isNaN = false ∧ ticks x = ticks p := by
  have hzeros : nonzeros s = 0 := Multiset.countP_eq_zero.mpr fun q hq => not_not.mpr (hs q hq).2
  have hlone : nonzeros (p ::ₘ s) ≤ 1 := by
    have hcount : nonzeros (p ::ₘ s) = nonzeros s + if ticks p ≠ 0 then 1 else 0 :=
      Multiset.countP_cons _ _ _
    rw [hcount, hzeros]
    split_ifs <;> omega
  have hnum : ∀ q ∈ p ::ₘ s, q.isNaN = false := by
    intro q hq
    rcases Multiset.mem_cons.mp hq with rfl | hq
    · exact hp
    · exact (hs q hq).1
  have hsum := h.ticks_of_lone hnum hlone
  rwa [Multiset.map_cons, Multiset.sum_cons, sum_ticks_of_zeros hzeros, add_zero] at hsum

end Bracketed

end NelderMead
