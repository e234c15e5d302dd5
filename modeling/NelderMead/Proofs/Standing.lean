import NelderMead.Proofs.Ranking
import NelderMead.Simplex

/-!
# The standing of a simplex

What an iteration reads off a simplex of `n + 1` vertices, in terms of keys.

* `Vertex.key` — the key of the augmented value.
* `Standing.Slots`, `Simplex.slots_of_standing` — where the vertices of a standing are read.
* `Standing.Describes` — what a standing says of its simplex; **`describes_of_standing`** derives
  all of it from the order of ranks.
* `Point.length_mean`, `Point.length_toward` — the points that an iteration computes have the
  dimension of the simplex.
-/

namespace NelderMead

/-! ## Lengths of computed points -/

namespace Point

lemma matching_eq_ok {α : Type} {x y : Point} {r r' : α} (h : matching x y r = .ok r') :
    x.length = y.length ∧ r = r' := by
  rw [matching] at h
  split_ifs at h with hlen
  exact ⟨hlen, Except.ok.inj h⟩

lemma length_add {x y z : Point} (h : add x y = .ok z) : z.length = x.length := by
  obtain ⟨hlen, rfl⟩ := matching_eq_ok h
  rw [List.length_zipWith, hlen, Nat.min_self]

lemma length_foldlM_add {ps : List Point} {x z : Point} (h : ps.foldlM add x = .ok z) :
    z.length = x.length := by
  induction ps generalizing x with
  | nil =>
    obtain rfl : x = z := Except.ok.inj h
    rfl
  | cons p ps ih =>
    rw [List.foldlM_cons] at h
    obtain ⟨y, hy, h⟩ := bind_eq_ok_iff.mp h
    exact (ih h).trans (length_add hy)

lemma length_mean {n : ℕ} {ps : List Point} {c : Point} (h : mean n ps = .ok c) :
    c.length = n := by
  obtain ⟨total, htotal, h⟩ := bind_eq_ok_iff.mp h
  obtain rfl := Except.ok.inj h
  rw [List.length_map, length_foldlM_add htotal, length_zeros]

lemma length_toward {c t z : Point} {k : Float} (h : toward c t k = .ok z) :
    z.length = c.length := by
  obtain ⟨hlen, rfl⟩ := matching_eq_ok h
  rw [List.length_zipWith, hlen, Nat.min_self]

end Point

/-! ## Standings -/

/-- The key of a vertex. -/
def Vertex.key (v : Vertex) : ℤ := rankKey v.augmented

/-- **What a standing says** of a simplex in dimension `n`. -/
structure Standing.Describes (t : Standing) (n : ℕ) (s : Simplex) : Prop where
  /-- The best vertex is in the simplex, and not in the slot that may be given away. -/
  best : ∃ slot, slot ≠ t.worstSlot ∧ s[slot]? = some t.best
  secondWorst : ∃ slot, slot ≠ t.worstSlot ∧ s[slot]? = some t.secondWorst
  worst : s[t.worstSlot]? = some t.worst
  best_le : ∀ v ∈ s, t.best.key ≤ v.key
  le_worst : ∀ v ∈ s, v.key ≤ t.worst.key
  le_secondWorst : ∀ slot v, slot ≠ t.worstSlot → s[slot]? = some v → v.key ≤ t.secondWorst.key
  secondWorst_eq_best : n = 1 → t.secondWorst = t.best
  length_centroid : t.centroid.length = n

namespace Simplex

/-- The augmented values of a simplex by slot. -/
def values (s : Simplex) : List Float := s.map Vertex.augmented

variable {s : Simplex} {n : ℕ}

lemma getElem?_values {slot : ℕ} {v : Vertex} (h : s[slot]? = some v) :
    s.values[slot]? = some v.augmented := by
  rw [values, List.getElem?_map, h, Option.map_some]

lemma length_values (s : Simplex) : s.values.length = s.length := List.length_map _

/-- Every slot is ranked once. -/
lemma order_perm (s : Simplex) : s.order.Perm (List.range s.length) := by
  have hperm := rankOrder_perm (s.map Vertex.augmented)
  rwa [List.length_map] at hperm

lemma key_le_of_rank {i k a b : ℕ} {u v : Vertex} (hik : i ≤ k) (ha : s.order[i]? = some a)
    (hb : s.order[k]? = some b) (hu : s[a]? = some u) (hv : s[b]? = some v) : u.key ≤ v.key :=
  rankKey_le_of_rank hik ha hb (getElem?_values hu) (getElem?_values hv)

/-- Every slot of a simplex of `n + 1` vertices has a rank up to `n`. -/
lemma exists_rank (hlen : s.length = n + 1) {slot : ℕ} {v : Vertex} (h : s[slot]? = some v) :
    ∃ i ≤ n, s.order[i]? = some slot := by
  have hslot : slot < s.values.length := by
    rw [length_values]
    exact (List.getElem?_eq_some_iff.mp h).1
  obtain ⟨i, hi, hrank⟩ := NelderMead.exists_rank hslot
  rw [length_values, hlen] at hi
  exact ⟨i, Nat.le_of_lt_succ hi, hrank⟩

lemma ofRank_eq_ok {i : ℕ} {v : Vertex} (h : s.ofRank i = .ok v) :
    ∃ slot, s.order[i]? = some slot ∧ s[slot]? = some v := by
  obtain ⟨slot, hslot, h⟩ := bind_eq_ok_iff.mp h
  exact ⟨slot, entry_eq_ok_iff.mp hslot, entry_eq_ok_iff.mp h⟩

end Simplex

/-- **Where a standing is read** in a simplex of dimension `n`: its best vertex in slot `b` and its
second worst in slot `l`, and all slots by their ranks. -/
structure Standing.Slots (t : Standing) (n : ℕ) (s : Simplex) (b l : ℕ) : Prop where
  rank_best : s.order[0]? = some b
  best : s[b]? = some t.best
  rank_secondWorst : s.order[n - 1]? = some l
  secondWorst : s[l]? = some t.secondWorst
  rank_worst : s.order[n]? = some t.worstSlot
  worst : s[t.worstSlot]? = some t.worst
  centroid : ∃ others, s.ofRanksBelow n = .ok others ∧
    Point.mean n (others.map Vertex.point) = .ok t.centroid

/-- No other rank has the slot of the worst vertex. -/
lemma Standing.Slots.ne_worstSlot {t : Standing} {n b l : ℕ} {s : Simplex} (h : t.Slots n s b l)
    {i slot : ℕ} (hi : s.order[i]? = some slot) (hlt : i < n) : slot ≠ t.worstSlot := by
  rintro rfl
  exact hlt.ne (rank_unique hi h.rank_worst)

namespace Simplex

variable {s : Simplex} {n : ℕ} {t : Standing}

lemma slots_of_standing (h : s.standing n = .ok t) : ∃ b l, t.Slots n s b l := by
  obtain ⟨best, hfirst, h⟩ := bind_eq_ok_iff.mp h
  obtain ⟨second, hnext, h⟩ := bind_eq_ok_iff.mp h
  obtain ⟨worstSlot, hworstSlot, h⟩ := bind_eq_ok_iff.mp h
  obtain ⟨worst, hworst, h⟩ := bind_eq_ok_iff.mp h
  obtain ⟨others, hothers, h⟩ := bind_eq_ok_iff.mp h
  obtain ⟨centroid, hcentroid, h⟩ := bind_eq_ok_iff.mp h
  obtain rfl := Except.ok.inj h
  obtain ⟨b, hb, hbest⟩ := ofRank_eq_ok hfirst
  obtain ⟨l, hl, hsecond⟩ := ofRank_eq_ok hnext
  exact ⟨b, l, hb, hbest, hl, hsecond, entry_eq_ok_iff.mp hworstSlot, entry_eq_ok_iff.mp hworst,
    others, hothers, hcentroid⟩

/-- **A standing describes its simplex.** -/
theorem describes_of_standing (hn : 0 < n) (hlen : s.length = n + 1) (h : s.standing n = .ok t) :
    t.Describes n s := by
  obtain ⟨b, l, hslots⟩ := slots_of_standing h
  have hb := hslots.rank_best
  have hl := hslots.rank_secondWorst
  obtain ⟨others, -, hcentroid⟩ := hslots.centroid
  refine
    { best := ⟨b, hslots.ne_worstSlot hb hn, hslots.best⟩
      secondWorst := ⟨l, hslots.ne_worstSlot hl (by omega), hslots.secondWorst⟩
      worst := hslots.worst
      best_le := fun v hv => ?_
      le_worst := fun v hv => ?_
      le_secondWorst := fun slot v hslot hv => ?_
      secondWorst_eq_best := ?_
      length_centroid := Point.length_mean hcentroid }
  · obtain ⟨slot, hslot⟩ := List.mem_iff_getElem?.mp hv
    obtain ⟨i, -, hi⟩ := exists_rank hlen hslot
    exact key_le_of_rank (Nat.zero_le i) hb hi hslots.best hslot
  · obtain ⟨slot, hslot⟩ := List.mem_iff_getElem?.mp hv
    obtain ⟨i, hi, hrank⟩ := exists_rank hlen hslot
    exact key_le_of_rank hi hrank hslots.rank_worst hslot hslots.worst
  · obtain ⟨i, hi, hrank⟩ := exists_rank hlen hv
    have hin : i ≠ n := by
      rintro rfl
      exact hslot (Option.some.inj (hrank.symm.trans hslots.rank_worst))
    exact key_le_of_rank (by omega) hrank hl hv hslots.secondWorst
  · rintro rfl
    obtain rfl := Option.some.inj (hl.symm.trans hb)
    exact Option.some.inj (hslots.secondWorst.symm.trans hslots.best)

end Simplex

namespace Standing.Describes

variable {t : Standing} {n : ℕ} {s : Simplex}

lemma best_mem (h : t.Describes n s) : t.best ∈ s := by
  obtain ⟨slot, -, hslot⟩ := h.best
  exact List.mem_of_getElem? hslot

lemma worst_mem (h : t.Describes n s) : t.worst ∈ s := List.mem_of_getElem? h.worst

lemma secondWorst_mem (h : t.Describes n s) : t.secondWorst ∈ s := by
  obtain ⟨slot, -, hslot⟩ := h.secondWorst
  exact List.mem_of_getElem? hslot

lemma best_le_worst (h : t.Describes n s) : t.best.key ≤ t.worst.key := h.best_le _ h.worst_mem

lemma secondWorst_le_worst (h : t.Describes n s) : t.secondWorst.key ≤ t.worst.key :=
  h.le_worst _ h.secondWorst_mem

end Standing.Describes

end NelderMead
