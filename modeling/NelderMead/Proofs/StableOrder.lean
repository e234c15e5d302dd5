import NelderMead.Proofs.OneSlot

/-!
# A lawful ranking and its stable order

The comparison of ranks is lawful on all values: swapping the values reverses it and ranking no
worse is transitive, also where some values are not numbers or are zeros of two signs.  A list of
slots can therefore be sorted by it in one stable way only, and a simplex lists its slots in that
way.

* `LawfulRanking`, `lawfulRanking_rankCmp` — the laws of a comparison of ranks.
* `Simplex.pairwise_before`, `Simplex.eq_order` — the order is stable, and the only one that is.
* `Simplex.exists_known_unknown` — vertices without a number come last.
* `Simplex.Extremes`, `Simplex.exists_extremes` — the best vertex comes first and the worst last.
* `Simplex.OrdersStably`, **`Simplex.ordersStably`** — the order of any simplex.
-/

namespace NelderMead

open Binary64

/-! ## The laws -/

/-- **The laws of a ranking**, beyond those of a comparison: swapping two values reverses the
result, and ranking no worse is transitive. -/
structure LawfulRanking (cmp : Float → Float → Ordering) : Prop extends Std.TransCmp cmp where
  /-- Two numbers always compare, so no result has to be made up for them. -/
  compares : ∀ x y, x.isNaN = false → y.isNaN = false → compareNumbers x y = some (cmp x y)
  eq_of_isNaN : ∀ x y, x.isNaN = true → y.isNaN = true → cmp x y = .eq
  gt_of_isNaN : ∀ x y, x.isNaN = true → y.isNaN = false → cmp x y = .gt
  /-- Bits of either sign that stand for no number rank like any other value that is none. -/
  bits : ∀ (b : UInt64) (y : Float), infinityBits < b.toNat % 2 ^ 63 →
    cmp (Float.ofBits b) y = if y.isNaN then .eq else .gt
  zeros : cmp 0.0 (-0.0) = .eq

instance transCmp_rankCmp : Std.TransCmp rankCmp where
  eq_swap {x y} := by
    rw [rankCmp_eq_compare, rankCmp_eq_compare, Int.compare_swap]
  isLE_trans {x y z} hxy hyz := by
    rw [rankCmp_eq_compare, Int.isLE_compare] at hxy hyz ⊢
    exact hxy.trans hyz

/-- **The comparison of ranks is lawful.** -/
theorem lawfulRanking_rankCmp : LawfulRanking rankCmp where
  toTransCmp := transCmp_rankCmp
  compares x y hx hy := by
    rw [compareNumbers_eq hx hy, rankCmp_eq_compare]
  eq_of_isNaN x y hx hy := by
    rw [rankCmp_eq_eq_iff, rankKey_of_isNaN hx, rankKey_of_isNaN hy]
  gt_of_isNaN x y hx hy := by
    rw [rankCmp, hx, hy]
  bits b y hb := by
    rw [rankCmp, (isNaN_ofBits_iff b).mpr hb]
    rcases y.isNaN with _ | _ <;> rfl
  zeros := by decide +kernel

/-! ## The stable order -/

/-- What ranks before another value does not rank behind it. -/
lemma RankedBefore.asymm {a b : Float × ℕ} (h : RankedBefore a b) : ¬RankedBefore b a := by
  intro h'
  rcases h, h' with ⟨hlt | ⟨heq, hslot⟩, hlt' | ⟨heq', hslot'⟩⟩
  · rw [rankCmp_eq_lt_iff] at hlt hlt'
    exact hlt.asymm hlt'
  · rw [rankCmp_eq_lt_iff] at hlt
    rw [rankCmp_eq_eq_iff] at heq'
    exact hlt.ne' heq'
  · rw [rankCmp_eq_eq_iff] at heq
    rw [rankCmp_eq_lt_iff] at hlt'
    exact hlt'.ne' heq
  · exact hslot.asymm hslot'

/-- A list along which a property is never lost falls into a part without it and a part with it. -/
lemma exists_split_of_pairwise {α : Type} {P Q : α → Prop} {l : List α}
    (hcases : ∀ a ∈ l, P a ∨ Q a) (h : l.Pairwise fun a b => Q a → Q b) :
    ∃ before after, l = before ++ after ∧ (∀ a ∈ before, P a) ∧ ∀ a ∈ after, Q a := by
  induction h with
  | nil => exact ⟨[], [], rfl, List.forall_mem_nil _, List.forall_mem_nil _⟩
  | @cons a l ha _ ih =>
    -- the first entry with the property is where the list falls apart
    obtain ⟨hcase, hrest⟩ := List.forall_mem_cons.mp hcases
    rcases hcase with hP | hQ
    · obtain ⟨before, after, rfl, hbefore, hafter⟩ := ih hrest
      exact ⟨a :: before, after, rfl, List.forall_mem_cons.mpr ⟨hP, hbefore⟩, hafter⟩
    · exact ⟨[], a :: l, rfl, List.forall_mem_nil _,
        List.forall_mem_cons.mpr ⟨hQ, fun b hb => ha b hb hQ⟩⟩

namespace Simplex

variable {s : Simplex} {n : ℕ}

lemma Before.asymm {k l : ℕ} (h : s.Before k l) : ¬s.Before l k := by
  rintro ⟨v', u', hv', hu', hbefore'⟩
  obtain ⟨u, v, hu, hv, hbefore⟩ := h
  obtain rfl := Option.some.inj (hu.symm.trans hu')
  obtain rfl := Option.some.inj (hv.symm.trans hv')
  exact hbefore.asymm hbefore'

/-- **Slots are listed in the order of ranks**, those that rank alike in the order of storage. -/
theorem pairwise_before (s : Simplex) : s.order.Pairwise s.Before := by
  refine List.pairwise_iff_getElem.mpr fun i k hi hk hik => ?_
  exact before_of_rank hik (List.getElem?_eq_getElem hi) (List.getElem?_eq_getElem hk)

/-- **There is no other stable order.** -/
theorem eq_order {slots : List ℕ} (hperm : slots.Perm (List.range s.length))
    (h : slots.Pairwise s.Before) : slots = s.order :=
  List.Perm.eq_of_pairwise (fun _ _ _ _ hkl hlk => absurd hlk hkl.asymm) h s.pairwise_before
    (hperm.trans s.order_perm.symm)

/-- The vertex in a slot has a number. -/
def Known (s : Simplex) (slot : ℕ) : Prop := ∃ v, s[slot]? = some v ∧ v.augmented.isNaN = false

/-- The vertex in a slot has a value that is not a number. -/
def Unknown (s : Simplex) (slot : ℕ) : Prop := ∃ v, s[slot]? = some v ∧ v.augmented.isNaN = true

lemma known_or_unknown {slot : ℕ} (h : slot < s.length) : s.Known slot ∨ s.Unknown slot := by
  have hget : s[slot]? = some s[slot] := List.getElem?_eq_getElem h
  rcases hnum : s[slot].augmented.isNaN with _ | _
  · exact Or.inl ⟨_, hget, hnum⟩
  · exact Or.inr ⟨_, hget, hnum⟩

/-- What comes after a vertex without a number has none either. -/
lemma Before.unknown {k l : ℕ} (h : s.Before k l) (hk : s.Unknown k) : s.Unknown l := by
  obtain ⟨u, v, hu, hv, hbefore⟩ := h
  obtain ⟨u', hu', hnan⟩ := hk
  obtain rfl := Option.some.inj (hu.symm.trans hu')
  refine ⟨v, hv, ?_⟩
  by_contra hnum
  have hle := hbefore.key_le.trans ((isNaN_eq_false_iff _).mp (Bool.eq_false_of_not_eq_true hnum))
  rw [(isNaN_eq_false_iff _).mpr hle] at hnan
  cases hnan

/-- **Vertices without a number come last.** -/
theorem exists_known_unknown (s : Simplex) : ∃ known unknown, s.order = known ++ unknown ∧
    (∀ slot ∈ known, s.Known slot) ∧ ∀ slot ∈ unknown, s.Unknown slot := by
  refine exists_split_of_pairwise (fun slot hslot => ?_) (s.pairwise_before.imp Before.unknown)
  exact known_or_unknown (List.mem_range.mp (s.order_perm.mem_iff.mp hslot))

/-- **The extremes of the order**: slot `b` holds the best vertex, and another slot `w` the worst. -/
structure Extremes (s : Simplex) (n b w : ℕ) : Prop where
  first : s.order[0]? = some b
  last : s.order[n]? = some w
  ne : b ≠ w
  /-- An iteration reads its best and its worst vertex there. -/
  standing : ∀ t, s.standing n = .ok t →
    s[b]? = some t.best ∧ s[w]? = some t.worst ∧ t.worstSlot = w

/-- **The order of a simplex** of `n + 1` vertices. -/
structure OrdersStably (s : Simplex) (n : ℕ) : Prop where
  perm : s.order.Perm (List.range (n + 1))
  /-- Values never get better along the order, and slots of values that rank alike increase. -/
  pairwise : s.order.Pairwise s.Before
  /-- No other arrangement of the slots is stable, so any stable sort brings this one. -/
  unique : ∀ slots : List ℕ, slots.Perm (List.range (n + 1)) → slots.Pairwise s.Before →
    slots = s.order
  unknownLast : ∃ known unknown, s.order = known ++ unknown ∧
    (∀ slot ∈ known, s.Known slot) ∧ ∀ slot ∈ unknown, s.Unknown slot
  extremes : 0 < n → ∃ b w, s.Extremes n b w

/-- The best vertex and the worst are in two slots. -/
lemma exists_extremes (hlen : s.length = n + 1) (hn : 0 < n) : ∃ b w, s.Extremes n b w := by
  have hlength : s.order.length = n + 1 := by
    rw [s.order_perm.length_eq, List.length_range, hlen]
  have hb : s.order[0]? = some s.order[0] := List.getElem?_eq_getElem (by omega)
  have hw : s.order[n]? = some s.order[n] := List.getElem?_eq_getElem (by omega)
  -- one slot has one rank, and the ranks zero and `n` are two
  refine ⟨_, _, hb, hw, fun heq => hn.ne (rank_unique hb (heq ▸ hw)), fun t ht => ?_⟩
  obtain ⟨b, l, hslots⟩ := slots_of_standing ht
  have hbest := Option.some.inj (hb.symm.trans hslots.rank_best)
  have hworst := Option.some.inj (hw.symm.trans hslots.rank_worst)
  rw [hbest, hworst]
  exact ⟨hslots.best, hslots.worst, rfl⟩

/-- **The ranking is lawful, and every simplex is ordered stably by it.** -/
theorem ordersStably : LawfulRanking rankCmp ∧
    ∀ (n : ℕ) (s : Simplex), s.length = n + 1 → s.OrdersStably n := by
  refine ⟨lawfulRanking_rankCmp, fun n s hlen => ?_⟩
  exact
    { perm := hlen ▸ s.order_perm
      pairwise := s.pairwise_before
      unique := fun slots hperm hslots => eq_order (hlen.symm ▸ hperm) hslots
      unknownLast := s.exists_known_unknown
      extremes := exists_extremes hlen }

end Simplex

/-! ## A simplex of all kinds of values -/

/-- Values of both zeros and infinities, between two that are not numbers. -/
def motley : Simplex :=
  [Float.ofBits 0xfff8000000000000, 0.0, 1.0 / 0.0, -0.0, Float.ofBits 0x7ff0000000000001,
    -1.0 / 0.0].map fun x => ⟨[x, x, x, x, x], ⟨x, x, []⟩⟩

theorem ordersStably_motley : motley.length = 5 + 1 ∧ motley.order = [5, 1, 3, 2, 0, 4] ∧
    motley.OrdersStably 5 :=
  ⟨rfl, by decide +kernel, Simplex.ordersStably.2 5 motley rfl⟩

end NelderMead
