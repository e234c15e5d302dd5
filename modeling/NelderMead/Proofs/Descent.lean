import NelderMead.Proofs.EntryPoints

/-!
# Descent

Simplexes only get better.  Slot by slot no value ever ranks behind the one it replaces, so the
sorted values of a later simplex are no worse one by one.  Whatever replaces a vertex ranks strictly
before it, so the sum of keys falls with each replacement, and between two simplexes with the same
values nothing was replaced.  None of this asks whether the values are numbers.

* `Search.noWorse_of_iterates`, `Search.Visits.noWorse` — no slot gets worse.
* `Search.Visits.newcomer_eq_none` — no way back to the values of an earlier simplex.
* `Progress.rows_pairwise` — the values in the rows do not get worse either.
* `Descends`, **`Search.Visits.descent`** — all that is said of two states of a run.
-/

namespace NelderMead

variable {σ : Type} {p : PenaltyFunction σ} {n : ℕ} {points : List Point} {maxIter : ℕ}
  {j₀ j j' : Journal σ}

/-! ## Simplexes -/

namespace Search

variable {s t u : Search} {i k l : ℕ}

lemma Decides.unique {st st' : Standing} {m m' : Move} (h : Decides p n s j st m)
    (h' : Decides p n s j st' m') : st = st' ∧ m = m' := by
  obtain ⟨hst, _, hm⟩ := h
  obtain ⟨hst', _, hm'⟩ := h'
  obtain rfl := Except.ok.inj (hst.symm.trans hst')
  have heq := hm.symm.trans hm'
  rw [Prod.mk.injEq, Except.ok.injEq] at heq
  exact ⟨rfl, heq.1⟩

lemma noWorse_of_iterates (hn : 0 < n) (hlen : s.simplex.length = n + 1)
    (h : (iterates p n l s).exec j = (.ok t, j')) : t.simplex.NoWorse s.simplex := by
  induction l generalizing s j with
  | zero =>
    obtain ⟨rfl, rfl⟩ := Run.exec_pure_eq_ok.mp h
    exact Simplex.NoWorse.refl _
  | succ l ih =>
    obtain ⟨u, j₁, hu, hrest⟩ := Run.exec_bind_eq_ok.mp h
    obtain ⟨st, m, ws, j₂, hdecides, hchosen, -, -, rfl⟩ := next_of_exec hu
    have hfirst := noWorse_next (Simplex.describes_of_standing hn hlen hdecides.1) hchosen
    exact (ih (hfirst.length_eq.trans hlen) hrest).trans hfirst

namespace Visits

lemma length_simplex (hn : 0 < n) (hpoints : points.length = n + 1)
    (h : Visits p n points maxIter j₀ k s j) : s.simplex.length = n + 1 := by
  obtain ⟨vs, hprogress⟩ := Progress.of_visits hn hpoints h
  exact hprogress.length_simplex.trans hpoints

/-- A later state is reached from an earlier one by the iterations between them. -/
lemma iterates_between (hs : Visits p n points maxIter j₀ i s j)
    (ht : Visits p n points maxIter j₀ k t j') (hik : i ≤ k) :
    (iterates p n (k - i) s).exec j = (.ok t, j') := by
  obtain ⟨u, j'', hu, hrest⟩ := ht.split hik
  obtain ⟨rfl, rfl⟩ := hu.unique hs
  exact hrest

lemma noWorse (hn : 0 < n) (hpoints : points.length = n + 1)
    (hs : Visits p n points maxIter j₀ i s j) (ht : Visits p n points maxIter j₀ k t j')
    (hik : i ≤ k) : t.simplex.NoWorse s.simplex :=
  noWorse_of_iterates hn (hs.length_simplex hn hpoints) (hs.iterates_between ht hik)

lemma exists_decides (hs : Visits p n points maxIter j₀ k s j)
    (ht : Visits p n points maxIter j₀ (k + 1) t j') :
    ∃ st m, Decides p n s j st m ∧ t = s.next st m := by
  have hone := hs.iterates_between ht (Nat.le_succ k)
  rw [Nat.add_sub_cancel_left] at hone
  obtain ⟨u, j₁, hu, hpure⟩ := Run.exec_bind_eq_ok.mp hone
  obtain ⟨rfl, rfl⟩ := Run.exec_pure_eq_ok.mp hpure
  obtain ⟨st, m, ws, j₂, hdecides, -, -, -, hnext⟩ := next_of_exec hu
  exact ⟨st, m, hdecides, hnext⟩

/-- What a state decides to take ranks strictly before what it replaces. -/
lemma key_newcomer_lt (hn : 0 < n) (hpoints : points.length = n + 1)
    (hs : Visits p n points maxIter j₀ k s j) {st : Standing} {m : Move}
    (hdecides : Decides p n s j st m) :
    s.simplex[st.worstSlot]? = some st.worst ∧ ∀ v ∈ m.newcomer, v.key < st.worst.key := by
  have hd := Simplex.describes_of_standing hn (hs.length_simplex hn hpoints) hdecides.1
  obtain ⟨j₁, hm⟩ := hdecides.2
  obtain ⟨ws, hchosen, -⟩ := chosen_of_exec hm
  exact ⟨hd.worst, fun v hv => hchosen.key_lt hd hv⟩

/-- **No way back.**  Between two states of one sum of keys, no state decides to replace a
vertex. -/
theorem newcomer_eq_none (hn : 0 < n) (hpoints : points.length = n + 1)
    (hs : Visits p n points maxIter j₀ i s j) (ht : Visits p n points maxIter j₀ k t j')
    (hsum : keySum s.simplex.values = keySum t.simplex.values) (hil : i ≤ l) (hlk : l < k)
    {ju : Journal σ} (hu : Visits p n points maxIter j₀ l u ju) {st : Standing} {m : Move}
    (hdecides : Decides p n u ju st m) : m.newcomer = none := by
  obtain ⟨u', ju', hu', -⟩ := ht.split (Nat.succ_le_of_lt hlk)
  obtain ⟨st', m', hdecides', rfl⟩ := hu.exists_decides hu'
  obtain ⟨rfl, rfl⟩ := hdecides.unique hdecides'
  have hbefore := keySum_mono (hs.noWorse hn hpoints hu hil).values
  have hafter := keySum_mono (hu'.noWorse hn hpoints ht hlk).values
  have hd := Simplex.describes_of_standing hn (hu.length_simplex hn hpoints) hdecides.1
  obtain ⟨j₁, hm⟩ := hdecides.2
  obtain ⟨ws, hchosen, -⟩ := chosen_of_exec hm
  rcases hnew : m.newcomer with _ | v
  · rfl
  · have hlt := keySum_next_lt hd hchosen hnew
    omega

end Visits

end Search

/-! ## Rows -/

/-- The values in the rows do not get worse, and the simplex has a vertex as good as any. -/
lemma Progress.rows_pairwise {k : ℕ} {vs : List Vertex} {s : Search}
    (h : Progress p n points j₀ k vs s j) :
    (s.trace.rows.toList.map fun row => rankKey (p.augmentedOf row.current)).Pairwise (· ≥ ·) ∧
      ∀ row ∈ s.trace.rows.toList,
        ∃ v ∈ s.simplex, v.key ≤ rankKey (p.augmentedOf row.current) := by
  induction h with
  | first => exact ⟨List.Pairwise.nil, List.forall_mem_nil _⟩
  | @iterate k vs ws s j j₁ t m before describes chosen evaluated ih =>
    obtain ⟨hpairwise, hmatched⟩ := ih
    have hnoWorse := Search.noWorse_next describes chosen
    have hbest : p.augmentedOf t.best.sample = t.best.augmented :=
      (before.consistent _ (before.simplex_subset describes.best_mem)).augmentedOf_sample
    rw [Search.rows_next, List.map_append]
    refine ⟨List.pairwise_append.mpr ⟨hpairwise, List.pairwise_singleton _ _, ?_⟩, ?_⟩
    · refine List.forall_mem_map.mpr fun row hrow => List.forall_mem_singleton.mpr ?_
      obtain ⟨v, hv, hle⟩ := hmatched row hrow
      show rankKey (p.augmentedOf t.best.sample) ≤ rankKey (p.augmentedOf row.current)
      rw [hbest]
      exact (describes.best_le v hv).trans hle
    · refine List.forall_mem_append.mpr ⟨fun row hrow => ?_, List.forall_mem_singleton.mpr ?_⟩
      · obtain ⟨v, hv, hle⟩ := hmatched row hrow
        obtain ⟨v', hv', hle'⟩ := hnoWorse.exists_le hv
        exact ⟨v', hv', hle'.trans hle⟩
      · rw [hbest]
        exact hnoWorse.exists_le describes.best_mem

/-! ## The descent of a run -/

/-- **The descent** from the state `s` before iteration `i` to the state `t` before
iteration `k`. -/
structure Descends (p : PenaltyFunction σ) (n : ℕ) (points : List Point) (maxIter : ℕ)
    (j₀ : Journal σ) (i : ℕ) (s : Search) (j : Journal σ) (k : ℕ) (t : Search) : Prop where
  /-- From the best to the worst, the values rank no worse one by one. -/
  ranked_le : List.Forall₂ (fun x y => rankCmp x y ≠ .gt) (ranked t.simplex.values)
    (ranked s.simplex.values)
  isNaN_le : t.simplex.values.countP (·.isNaN) ≤ s.simplex.values.countP (·.isNaN)
  /-- The iteration from `s` on, if it succeeds, leads to the state of the move decided on. -/
  next : ∀ u ju, Search.Visits p n points maxIter j₀ (i + 1) u ju →
    ∃ st m, Search.Decides p n s j st m ∧ u = s.next st m
  replaced_lt : ∀ st m, Search.Decides p n s j st m →
    s.simplex[st.worstSlot]? = some st.worst ∧
      ∀ v ∈ m.newcomer, rankCmp v.augmented st.worst.augmented = .lt
  /-- The values in the rows so far rank no worse from row to row. -/
  rows_le : (t.trace.rows.toList.map fun row =>
      row.current.objective + p.penalty row.current.constraints).Pairwise
    fun x y => rankCmp y x ≠ .gt
  /-- So do those in the columns of a result that is read off them. -/
  columns_le : ∀ m evaluations r, SearchResult.ofTrace n m evaluations t.trace = .ok r →
    (List.zipWith (fun f g => f + p.penalty g) r.f r.g.rows).Pairwise
      fun x y => rankCmp y x ≠ .gt
  no_return : SameRanks s.simplex.values t.simplex.values →
    ∀ l u ju, i ≤ l → l < k → Search.Visits p n points maxIter j₀ l u ju →
      ∀ st m, Search.Decides p n u ju st m → m.newcomer = none

lemma Search.Visits.rows_le (hn : 0 < n) (hpoints : points.length = n + 1) {k : ℕ} {t : Search}
    (ht : Visits p n points maxIter j₀ k t j) :
    (t.trace.rows.toList.map fun row =>
        row.current.objective + p.penalty row.current.constraints).Pairwise
      fun x y => rankCmp y x ≠ .gt := by
  obtain ⟨vs, hprogress⟩ := Progress.of_visits hn hpoints ht
  rw [List.pairwise_map]
  refine (List.pairwise_map.mp hprogress.rows_pairwise.1).imp fun hge => ?_
  exact (rankCmp_ne_gt_iff _ _).mpr hge

/-- **Descent and no cycling**, along every run, whether it succeeds or fails later. -/
theorem Search.Visits.descent (hn : 0 < n) (hpoints : points.length = n + 1) {i k : ℕ}
    {s t : Search} (hs : Visits p n points maxIter j₀ i s j)
    (ht : Visits p n points maxIter j₀ k t j') (hik : i ≤ k) :
    Descends p n points maxIter j₀ i s j k t where
  ranked_le := ranked_mono (hs.noWorse hn hpoints ht hik).values
  isNaN_le := countP_isNaN_le (hs.noWorse hn hpoints ht hik).values
  next _ _ hu := hs.exists_decides hu
  replaced_lt := by
    intro st m hdecides
    obtain ⟨hslot, hlt⟩ := hs.key_newcomer_lt hn hpoints hdecides
    exact ⟨hslot, fun v hv => (rankCmp_eq_lt_iff _ _).mpr (hlt v hv)⟩
  rows_le := ht.rows_le hn hpoints
  columns_le := by
    intro m evaluations r hr
    have hshows := shows_of_ofTrace hr
    rw [hshows.f, hshows.g, List.zipWith_map, List.zipWith_self]
    exact ht.rows_le hn hpoints
  no_return := by
    intro hsame l u ju hil hlk hu st m hdecides
    exact hs.newcomer_eq_none hn hpoints ht hsame.keySum_eq hil hlk hu hdecides

theorem descends_square : ∃ s j t j', ∃ j₀ : Journal Unit,
    Search.Visits squarePenalty 1 segment.rows 2 j₀ 0 s j ∧
    Search.Visits squarePenalty 1 segment.rows 2 j₀ 2 t j' ∧
    Descends squarePenalty 1 segment.rows 2 j₀ 0 s j 2 t := by
  obtain ⟨r, j, hrun, -⟩ := completes_square (P := fun _ _ => True) (by decide +kernel)
  obtain ⟨-, -, j₀, -, hsearch⟩ := hrun.search penalized_square
  obtain ⟨t, j', ht, -⟩ := visits_of_search hsearch
  obtain ⟨s, j, hs, -⟩ := ht.split (Nat.zero_le 2)
  exact ⟨s, j, t, j', j₀, hs, ht, hs.descent Nat.one_pos rfl ht (Nat.zero_le 2)⟩

end NelderMead
