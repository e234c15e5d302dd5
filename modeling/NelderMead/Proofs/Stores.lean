import NelderMead.Proofs.Overwriting
import NelderMead.Proofs.Shape

/-!
# The stores show the rows

The stores of a run are full of zeros and are overwritten row by row.  At any time they show the rows
of a trace in order, and zeros behind them: what a record writes to each of them is what the rows
have in common, although the best sample so far is not found there by its index but by a copy of its
objective, and is copied from the row before in three pieces.

* `padded` — entries with zeros behind them.
* `Table.Holds`, `Columns.Holds`, `Stores.Holds` — what tables, columns and stores show.
* `Columns.Holds.write`, `Columns.Holds.carry`, **`Columns.Holds.improve`** — one row of columns is
  overwritten.
* **`Stores.Holds.record`** — recording a sample in the stores appends a row to the trace that they
  show.
* **`Stores.Holds.ofTrace`** — the result that full stores show is that of their rows.
-/

namespace NelderMead

/-! ## Entries with zeros behind them -/

section Padded

variable {α : Type} {zero : α} {as : List α} {xs : Array α} {rows i : ℕ}

/-- **The entries `as` and zeros behind them**, `rows` in all. -/
def padded (zero : α) (rows : ℕ) (as : List α) : List α :=
  as ++ List.replicate (rows - as.length) zero

lemma length_padded (h : as.length ≤ rows) : (padded zero rows as).length = rows := by
  rw [padded, List.length_append, List.length_replicate, Nat.add_sub_of_le h]

/-- Nothing stands behind as many entries as there are rows. -/
lemma padded_full (h : as.length = rows) : padded zero rows as = as := by
  rw [padded, h, Nat.sub_self]
  exact List.append_nil as

lemma map_padded {β : Type} (read : α → β) (zero : α) (rows : ℕ) (as : List α) :
    (padded zero rows as).map read = padded (read zero) rows (as.map read) := by
  rw [padded, padded, List.map_append, List.map_replicate, List.length_map]

/-- The next entry takes the place of the first zero. -/
lemma set_padded (h : as.length < rows) (a : α) :
    (padded zero rows as).set as.length a = padded zero rows (as ++ [a]) := by
  obtain ⟨k, rfl⟩ : ∃ k, rows = as.length + 1 + k := ⟨_, (Nat.add_sub_of_le h).symm⟩
  have hbefore : as.length + 1 + k - as.length = k + 1 := by omega
  have hafter : as.length + 1 + k - (as ++ [a]).length = k := by
    rw [List.length_append, List.length_singleton]
    omega
  rw [padded, padded, hbefore, hafter, List.replicate_succ, List.set_append_right _ _ le_rfl,
    Nat.sub_self, List.set_cons_zero, List.append_assoc, List.singleton_append]

lemma getElem?_padded_of_lt (h : i < as.length) : (padded zero rows as)[i]? = as[i]? :=
  List.getElem?_append_left h

lemma getElem?_padded_of_le (h : as.length ≤ i) (hi : i < rows) :
    (padded zero rows as)[i]? = some zero := by
  rw [padded, List.getElem?_append_right h, List.getElem?_replicate, if_pos (by omega)]

/-- A store that shows some entries has room for `rows` of them. -/
lemma size_of_padded (h : xs.toList = padded zero rows as) (hle : as.length ≤ rows) :
    xs.size = rows := by
  rw [← Array.length_toList, h, length_padded hle]

/-- **One more entry is shown** behind those that are there. -/
lemma put_padded (h : xs.toList = padded zero rows as) (hi : as.length = i) (hroom : i < rows)
    (a : α) : ∃ ys, put xs i a = .ok ys ∧ ys.toList = padded zero rows (as ++ [a]) := by
  subst hi
  have hlt : as.length < xs.size := hroom.trans_eq (size_of_padded h hroom.le).symm
  refine ⟨_, put_eq_ok_iff.mpr ⟨hlt, rfl⟩, ?_⟩
  rw [Array.toList_set, h, set_padded hroom]

end Padded

/-! ## Tables -/

/-- **The table shows the points `rs`** in rows of `cols` entries, and zeros behind them. -/
structure Table.Holds (t : Table) (rows cols : ℕ) (rs : List Point) : Prop where
  cols_eq : t.cols = cols
  toList_rows : t.rows.toList = padded (List.replicate cols 0.0) rows rs

namespace Table.Holds

variable {t : Table} {rows cols i : ℕ} {rs : List Point} {r : Point}

lemma zeros (rows cols : ℕ) : (Table.zeros rows cols).Holds rows cols [] :=
  ⟨rfl, Array.toList_replicate⟩

lemma size_rows (h : t.Holds rows cols rs) (hle : rs.length ≤ rows) : t.rows.size = rows :=
  size_of_padded h.toList_rows hle

/-- A point of the right length is shown behind those that are there. -/
lemma assign (h : t.Holds rows cols rs) (hi : rs.length = i) (hroom : i < rows)
    (hr : r.length = cols) :
    ∃ t', t.assign i r = .ok t' ∧ t'.Holds rows cols (rs ++ [r]) := by
  subst hi
  have hlt : rs.length < t.rows.size := hroom.trans_eq (h.size_rows hroom.le).symm
  have hcols : r.length = t.cols := hr.trans h.cols_eq.symm
  obtain ⟨t', hassign⟩ := Table.exists_assign_iff.mpr ⟨hlt, Or.inl hcols⟩
  obtain ⟨_, r', hfitted, hcols', hrows'⟩ := Table.assign_eq_ok_iff.mp hassign
  obtain rfl : ⟨r, hcols⟩ = r' := Except.ok.inj ((Table.fitted_of_length hcols).symm.trans hfitted)
  refine ⟨t', hassign, hcols'.trans h.cols_eq, ?_⟩
  rw [hrows', Array.toList_set, h.toList_rows, set_padded hroom]

/-- The last point is shown once more. -/
lemma carry (h : t.Holds rows cols (rs ++ [r])) (hi : rs.length = i) (hroom : i + 1 < rows) :
    ∃ t', t.carry i = .ok t' ∧ t'.Holds rows cols (rs ++ [r] ++ [r]) := by
  subst hi
  have hlast : t.rows[rs.length]? = some r := by
    rw [← Array.getElem?_toList, h.toList_rows, getElem?_padded_of_lt (by simp),
      List.getElem?_concat_length]
  have hr : r.length = cols := (t.length_row r (Array.mem_of_getElem? hlast)).trans h.cols_eq
  obtain ⟨t', hassign, hholds⟩ := h.assign List.length_append hroom hr
  exact ⟨t', Table.carry_eq_ok_iff.mpr ⟨r, hlast, hassign⟩, hholds⟩

/-- As many points as there are rows make up the matrix. -/
lemma ofRows (h : t.Holds rows cols rs) (hfull : rs.length = rows) :
    Matrix.ofRows cols rs = .ok t.toMatrix := by
  obtain ⟨cols, store, hlength⟩ := t
  obtain ⟨rfl, hrows⟩ := h
  obtain rfl : store.toList = rs := hrows.trans (padded_full hfull)
  exact Matrix.ofRows_of_length _

end Table.Holds

/-! ## Columns -/

/-- **The columns show the samples `ys`**, of points of dimension `n` and values of `m` constraints,
and zeros behind them. -/
structure Columns.Holds (c : Columns) (n m rows : ℕ) (ys : List Sample) : Prop where
  f : c.f.toList = padded 0.0 rows (ys.map (·.objective))
  g : c.g.Holds rows m (ys.map (·.constraints))
  x : c.x.Holds rows n (ys.map (·.point))

namespace Columns.Holds

variable {c : Columns} {n m rows i : ℕ} {ys : List Sample} {y : Sample}

lemma zeros (n m rows : ℕ) : (Columns.zeros n m rows).Holds n m rows [] :=
  ⟨Array.toList_replicate, .zeros rows m, .zeros rows n⟩

/-- One more sample is shown if each of its pieces is. -/
lemma concat_iff : c.Holds n m rows (ys ++ [y]) ↔
    c.f.toList = padded 0.0 rows (ys.map (·.objective) ++ [y.objective]) ∧
      c.g.Holds rows m (ys.map (·.constraints) ++ [y.constraints]) ∧
      c.x.Holds rows n (ys.map (·.point) ++ [y.point]) := by
  have hmap : ∀ {α : Type} (read : Sample → α),
      (ys ++ [y]).map read = ys.map read ++ [read y] := fun _ => List.map_append
  rw [← hmap, ← hmap, ← hmap]
  exact ⟨fun h => ⟨h.f, h.g, h.x⟩, fun h => ⟨h.1, h.2.1, h.2.2⟩⟩

/-- **A sample is shown** behind those that are there. -/
theorem write (h : c.Holds n m rows ys) (hi : ys.length = i) (hroom : i < rows)
    (hy : y.Shaped n m) : ∃ c', c.write i y = .ok c' ∧ c'.Holds n m rows (ys ++ [y]) := by
  obtain ⟨f, hf, hf'⟩ := put_padded h.f ((List.length_map _).trans hi) hroom y.objective
  obtain ⟨g, hg, hg'⟩ := h.g.assign ((List.length_map _).trans hi) hroom hy.constraints
  obtain ⟨x, hx, hx'⟩ := h.x.assign ((List.length_map _).trans hi) hroom hy.point
  exact ⟨⟨f, g, x⟩, write_eq_ok_iff.mpr ⟨hf, hg, hx⟩, concat_iff.mpr ⟨hf', hg', hx'⟩⟩

/-- The objective of the last sample is there to be compared with. -/
lemma getElem?_f (h : c.Holds n m rows (ys ++ [y])) : c.f[ys.length]? = some y.objective := by
  rw [← Array.getElem?_toList, h.f, getElem?_padded_of_lt (by simp)]
  simp

/-- **The last sample is shown once more**, copied piece by piece. -/
theorem carry (h : c.Holds n m rows (ys ++ [y])) (hi : ys.length = i) (hroom : i + 1 < rows) :
    ∃ c', c.carry i = .ok c' ∧ c'.Holds n m rows (ys ++ [y] ++ [y]) := by
  subst hi
  have hmap : ∀ {α : Type} (read : Sample → α),
      (ys ++ [y]).map read = ys.map read ++ [read y] := fun _ => List.map_append
  obtain ⟨-, hg, hx⟩ := concat_iff.mp h
  obtain ⟨g, hg, hg'⟩ := hg.carry (List.length_map _) hroom
  obtain ⟨x, hx, hx'⟩ := hx.carry (List.length_map _) hroom
  obtain ⟨f, hf, hf'⟩ :=
    put_padded h.f ((List.length_map _).trans List.length_append) hroom y.objective
  refine ⟨⟨f, g, x⟩, carry_eq_ok_iff.mpr ⟨hg, hx, _, h.getElem?_f, hf⟩, concat_iff.mpr ?_⟩
  simp only [hmap] at hf' ⊢
  exact ⟨hf', hg', hx'⟩

/-- **The better of a sample and the last one is shown** behind the best samples of some rows.  The
comparison is with the copy of an objective. -/
theorem improve {rs : List Row} (h : c.Holds n m rows (rs.map (·.best))) (hi : rs.length = i)
    (hroom : i < rows) (hy : y.Shaped n m) : ∃ c', c.improve i y = .ok c' ∧
      c'.Holds n m rows (rs.map (·.best) ++ [Trace.better rs.getLast? y]) := by
  subst hi
  rcases List.eq_nil_or_concat' rs with rfl | ⟨before, row, rfl⟩
  · exact h.write rfl hroom hy
  · have hcount : (before ++ [row]).length = before.length + 1 := List.length_append
    rw [hcount] at hroom ⊢
    rw [List.map_append] at h ⊢
    have hleast := h.getElem?_f
    rw [List.length_map] at hleast
    rw [List.getLast?_concat, Trace.better]
    simp only [improve_succ_eq_ok_iff, hleast, Option.some.injEq, exists_eq_left']
    split_ifs
    · exact h.write (by simp) hroom hy
    · exact h.carry (List.length_map _) hroom

/-- Columns that show some samples have room for `rows` of them. -/
lemma sized (h : c.Holds n m rows ys) (hle : ys.length ≤ rows) : c.Sized n m rows := by
  have hlength : ∀ {α : Type} (read : Sample → α), (ys.map read).length ≤ rows := fun _ =>
    (List.length_map _).trans_le hle
  exact ⟨size_of_padded h.f (hlength _), h.g.cols_eq, h.g.size_rows (hlength _), h.x.cols_eq,
    h.x.size_rows (hlength _)⟩

/-- As many samples as there are rows are all that the columns show. -/
lemma full (h : c.Holds n m rows ys) (hfull : ys.length = rows) :
    c.f.toList = ys.map (·.objective) ∧
      Matrix.ofRows m (ys.map (·.constraints)) = .ok c.g.toMatrix ∧
      Matrix.ofRows n (ys.map (·.point)) = .ok c.x.toMatrix := by
  have hlength : ∀ {α : Type} (read : Sample → α), (ys.map read).length = rows := fun _ =>
    (List.length_map _).trans hfull
  exact ⟨h.f.trans (padded_full (hlength _)), h.g.ofRows (hlength _), h.x.ofRows (hlength _)⟩

end Columns.Holds

/-! ## All stores -/

/-- **The stores show the rows** of the trace `t`, and zeros behind them. -/
structure Stores.Holds (st : Stores) (n m rows : ℕ) (t : Trace) : Prop where
  count_eq : st.count = t.size
  current : st.current.Holds n m rows (t.rows.toList.map (·.current))
  best : st.best.Holds n m rows (t.rows.toList.map (·.best))
  samplesAtIteration :
    st.samplesAtIteration.toList = padded 0 rows (t.rows.toList.map (·.evaluations))

namespace Stores

variable {st : Stores} {n m rows : ℕ} {t : Trace} {y : Sample}

lemma reserve_of_fits (h : Trace.Fits n m rows) : reserve n m rows =
    .ok ⟨0, Columns.zeros n m rows, Columns.zeros n m rows, Array.replicate rows 0⟩ :=
  if_pos h

/-- Stores that are set aside show no rows. -/
lemma holds_of_reserve (h : reserve n m rows = .ok st) : st.Holds n m rows {} := by
  rw [reserve] at h
  split_ifs at h
  obtain rfl := Except.ok.inj h
  exact ⟨rfl, .zeros n m rows, .zeros n m rows, Array.toList_replicate⟩

/-- Stores that show some rows have room for `rows` of them. -/
lemma Holds.sized (h : st.Holds n m rows t) (hle : t.size ≤ rows) : st.Sized n m rows := by
  have hlength : ∀ {α : Type} (read : Row → α), (t.rows.toList.map read).length ≤ rows := fun _ =>
    ((List.length_map _).trans Array.length_toList).trans_le hle
  exact ⟨h.current.sized (hlength _), h.best.sized (hlength _),
    size_of_padded h.samplesAtIteration (hlength _)⟩

/-- **A record in the stores is a record by rows.** -/
theorem Holds.record (h : st.Holds n m rows t) (hroom : t.size < rows) (hy : y.Shaped n m)
    (evaluations : ℕ) :
    ∃ st', st.record y evaluations = .ok st' ∧ st'.Holds n m rows (t.record y evaluations) := by
  have hsize : t.rows.toList.length = t.size := Array.length_toList
  have hrows := t.toList_rows_record y evaluations
  obtain ⟨count, current, best, counts⟩ := st
  obtain ⟨rfl, hcurrent, hbest, hcounts⟩ := h
  obtain ⟨current', hc, hcurrent'⟩ := hcurrent.write ((List.length_map _).trans hsize) hroom hy
  obtain ⟨best', hb, hbest'⟩ := hbest.improve hsize hroom hy
  obtain ⟨counts', hs, hcounts'⟩ :=
    put_padded hcounts ((List.length_map _).trans hsize) hroom evaluations
  refine ⟨⟨t.size + 1, current', best', counts'⟩, record_eq_ok_iff.mpr ⟨hc, hb, hs, rfl⟩,
    (t.size_record y evaluations).symm, ?_, ?_, ?_⟩
  · rw [hrows, List.map_append]
    exact hcurrent'
  · rw [hrows, List.map_append, ← Array.getLast?_toList]
    exact hbest'
  · rw [hrows, List.map_append]
    exact hcounts'

/-- **Full stores show the result** of their rows. -/
theorem Holds.ofTrace (h : st.Holds n m rows t) (hfull : t.size = rows) (evaluations : ℕ) :
    SearchResult.ofTrace n m evaluations t = .ok (SearchResult.ofStores evaluations st) := by
  have hlength : ∀ {α : Type} (read : Row → α), (t.rows.toList.map read).length = rows := fun _ =>
    ((List.length_map _).trans Array.length_toList).trans hfull
  obtain ⟨hf, hg, hx⟩ := h.current.full (hlength _)
  obtain ⟨hbestF, hbestG, hbestX⟩ := h.best.full (hlength _)
  have hcounts := h.samplesAtIteration
  rw [padded_full (hlength _)] at hcounts
  simp only [List.map_map] at hf hg hx hbestF hbestG hbestX
  exact ofTrace_eq_ok_iff.mpr
    { evaluations_eq := rfl
      iterations_eq := h.count_eq.trans Array.length_toList.symm
      f := hf
      g := (rows_of_ofRows hg).1
      x := (rows_of_ofRows hx).1
      bestF := hbestF
      bestG := (rows_of_ofRows hbestG).1
      bestX := (rows_of_ofRows hbestX).1
      samplesAtIteration := hcounts
      ofRows_g := hg
      ofRows_x := hx
      ofRows_bestG := hbestG
      ofRows_bestX := hbestX }

end Stores

end NelderMead
