import NelderMead.Trace
import Mathlib.Order.Nat
import Mathlib.Tactic.Lemma
import Mathlib.Tactic.SplitIfs

/-!
# Overwriting stores

What a record does to stores, whatever they contain.  It writes the row at the index of the stores in
each of them and leaves all other rows of all of them as they are, and it succeeds exactly if that row
is there and the values fit.

* `Table.assign_eq_ok_iff`, `Columns.write_eq_ok_iff` and their neighbours — what is overwritten.
* `Columns.SameRow`, `Stores.SameRow`, **`Stores.sameRow_of_record`** — what is left alone.
* `Columns.Sized`, `Stores.Sized` — sizes and widths.
* `Table.Takes`, **`Stores.Sized.exists_record_iff`** — when a record succeeds.
-/

namespace NelderMead

/-! ## Single stores -/

section Put

variable {α : Type} {xs ys : Array α} {i k : ℕ} {a : α}

lemma getElem?_of_put (h : put xs i a = .ok ys) (hk : k ≠ i) : ys[k]? = xs[k]? := by
  obtain ⟨hi, rfl⟩ := put_eq_ok_iff.mp h
  exact Array.getElem?_set_ne hi hk.symm

lemma exists_put_iff : (∃ ys, put xs i a = .ok ys) ↔ i < xs.size := by
  simp only [put_eq_ok_iff]
  constructor
  · rintro ⟨ys, hi, -⟩
    exact hi
  · intro hi
    exact ⟨_, hi, rfl⟩

end Put

/-! ## Tables -/

namespace Table

variable {t t' : Table} {i k : ℕ} {values : Point}

/-- The values can be assigned to a row of `cols` entries. -/
def Takes (cols : ℕ) (values : Point) : Prop := values.length = cols ∨ values.length = 1

lemma fitted_of_length {cols : ℕ} (h : values.length = cols) :
    fitted cols values = .ok ⟨values, h⟩ :=
  dif_pos h

lemma exists_fitted_iff (cols : ℕ) (values : Point) :
    (∃ r, fitted cols values = .ok r) ↔ Takes cols values := by
  rw [fitted, Takes]
  split_ifs with hlength
  · exact iff_of_true ⟨_, rfl⟩ (Or.inl hlength)
  · rcases values with _ | ⟨v, _ | ⟨u, vs⟩⟩
    · refine iff_of_false ?_ fun h => nomatch h.resolve_left hlength
      rintro ⟨r, hr⟩
      cases hr
    · exact iff_of_true ⟨_, rfl⟩ (Or.inr rfl)
    · refine iff_of_false ?_ fun h => nomatch h.resolve_left hlength
      rintro ⟨r, hr⟩
      cases hr

/-- **What an assignment overwrites.** -/
lemma assign_eq_ok_iff : t.assign i values = .ok t' ↔ ∃ h : i < t.rows.size, ∃ r,
    fitted t.cols values = .ok r ∧ t'.cols = t.cols ∧ t'.rows = t.rows.set i r.1 := by
  obtain ⟨cols, rows, hlength⟩ := t
  obtain ⟨cols', rows', hlength'⟩ := t'
  by_cases h : i < rows.size
  · have hassign : assign ⟨cols, rows, hlength⟩ i values = _ := dif_pos h
    rw [hassign]
    cases hr : fitted cols values with
    | error f =>
      refine iff_of_false (fun hok => nomatch hok) ?_
      rintro ⟨_, r, hok, -⟩
      cases hok
    | ok r =>
      simp only [Except.map, Except.ok.injEq, mk.injEq, h, exists_true_left, exists_eq_left',
        eq_comm]
  · have hassign : assign ⟨cols, rows, hlength⟩ i values = _ := dif_neg h
    rw [hassign]
    refine iff_of_false (fun hok => nomatch hok) ?_
    rintro ⟨hi, -⟩
    exact h hi

lemma exists_assign_iff :
    (∃ t', t.assign i values = .ok t') ↔ i < t.rows.size ∧ Takes t.cols values := by
  simp only [assign_eq_ok_iff]
  constructor
  · rintro ⟨t', hi, r, hr, -⟩
    exact ⟨hi, (exists_fitted_iff _ _).mp ⟨r, hr⟩⟩
  · rintro ⟨hi, htakes⟩
    obtain ⟨r, hr⟩ := (exists_fitted_iff _ _).mpr htakes
    refine ⟨⟨t.cols, t.rows.set i r.1, fun s hs => ?_⟩, hi, r, hr, rfl, rfl⟩
    exact (Array.mem_or_eq_of_mem_set hs).elim (t.length_row s) (· ▸ r.2)

lemma carry_eq_ok_iff : t.carry i = .ok t' ↔
    ∃ r, t.rows[i]? = some r ∧ t.assign (i + 1) r = .ok t' := by
  rw [carry, bind_eq_ok_iff]
  simp only [cell_eq_ok_iff]

/-- A row fits where it is copied to. -/
lemma exists_carry_iff : (∃ t', t.carry i = .ok t') ↔ i + 1 < t.rows.size := by
  simp only [carry_eq_ok_iff]
  constructor
  · rintro ⟨t', r, -, hassign⟩
    exact (exists_assign_iff.mp ⟨t', hassign⟩).1
  · intro hi
    have hbefore : i < t.rows.size := by omega
    have htakes : Takes t.cols t.rows[i] := Or.inl (t.length_row _ (Array.getElem_mem hbefore))
    obtain ⟨t', hassign⟩ := exists_assign_iff.mpr ⟨hi, htakes⟩
    exact ⟨t', _, Array.getElem?_eq_getElem hbefore, hassign⟩

/-- An assignment leaves all other rows alone. -/
lemma getElem?_of_assign (h : t.assign i values = .ok t') (hk : k ≠ i) :
    t'.rows[k]? = t.rows[k]? := by
  obtain ⟨hi, r, -, -, hrows⟩ := assign_eq_ok_iff.mp h
  rw [hrows]
  exact Array.getElem?_set_ne hi hk.symm

lemma getElem?_of_carry (h : t.carry i = .ok t') (hk : k ≠ i + 1) :
    t'.rows[k]? = t.rows[k]? := by
  obtain ⟨r, -, hassign⟩ := carry_eq_ok_iff.mp h
  exact getElem?_of_assign hassign hk

end Table

/-! ## Columns -/

namespace Columns

variable {c c' : Columns} {n m rows i k : ℕ} {y : Sample}

lemma write_eq_ok_iff : c.write i y = .ok c' ↔ put c.f i y.objective = .ok c'.f ∧
    c.g.assign i y.constraints = .ok c'.g ∧ c.x.assign i y.point = .ok c'.x := by
  obtain ⟨f', g', x'⟩ := c'
  simp only [write, bind_eq_ok_iff, pure, Except.pure, Except.ok.injEq, mk.injEq]
  constructor
  · rintro ⟨f, hf, g, hg, x, hx, rfl, rfl, rfl⟩
    exact ⟨hf, hg, hx⟩
  · rintro ⟨hf, hg, hx⟩
    exact ⟨f', hf, g', hg, x', hx, rfl, rfl, rfl⟩

lemma carry_eq_ok_iff : c.carry i = .ok c' ↔ c.g.carry i = .ok c'.g ∧ c.x.carry i = .ok c'.x ∧
    ∃ least, c.f[i]? = some least ∧ put c.f (i + 1) least = .ok c'.f := by
  obtain ⟨f', g', x'⟩ := c'
  simp only [carry, bind_eq_ok_iff, cell_eq_ok_iff, pure, Except.pure, Except.ok.injEq, mk.injEq]
  constructor
  · rintro ⟨g, hg, x, hx, least, hleast, f, hf, rfl, rfl, rfl⟩
    exact ⟨hg, hx, least, hleast, hf⟩
  · rintro ⟨hg, hx, least, hleast, hf⟩
    exact ⟨g', hg, x', hx, least, hleast, f', hf, rfl, rfl, rfl⟩

lemma improve_succ_eq_ok_iff : c.improve (i + 1) y = .ok c' ↔ ∃ least, c.f[i]? = some least ∧
    if y.objective < least then c.write (i + 1) y = .ok c' else c.carry i = .ok c' := by
  rw [improve, bind_eq_ok_iff]
  simp only [cell_eq_ok_iff]
  refine exists_congr fun least => and_congr_right fun _ => ?_
  split_ifs <;> rfl

/-! ### What is left alone -/

/-- **All columns are the same in row `k`.** -/
structure SameRow (c c' : Columns) (k : ℕ) : Prop where
  f : c'.f[k]? = c.f[k]?
  g : c'.g.rows[k]? = c.g.rows[k]?
  x : c'.x.rows[k]? = c.x.rows[k]?

lemma SameRow.refl (c : Columns) (k : ℕ) : SameRow c c k := ⟨rfl, rfl, rfl⟩

lemma SameRow.trans {c'' : Columns} (h : SameRow c c' k) (h' : SameRow c' c'' k) :
    SameRow c c'' k :=
  ⟨h'.f.trans h.f, h'.g.trans h.g, h'.x.trans h.x⟩

lemma sameRow_of_write (h : c.write i y = .ok c') (hk : k ≠ i) : SameRow c c' k := by
  obtain ⟨hf, hg, hx⟩ := write_eq_ok_iff.mp h
  exact ⟨getElem?_of_put hf hk, Table.getElem?_of_assign hg hk,
    Table.getElem?_of_assign hx hk⟩

lemma sameRow_of_carry (h : c.carry i = .ok c') (hk : k ≠ i + 1) : SameRow c c' k := by
  obtain ⟨hg, hx, least, -, hf⟩ := carry_eq_ok_iff.mp h
  exact ⟨getElem?_of_put hf hk, Table.getElem?_of_carry hg hk,
    Table.getElem?_of_carry hx hk⟩

/-- **Only the row that is improved changes**, in particular not the row that it is compared with. -/
theorem sameRow_of_improve (h : c.improve i y = .ok c') (hk : k ≠ i) : SameRow c c' k := by
  cases i with
  | zero => exact sameRow_of_write h hk
  | succ i =>
    obtain ⟨least, -, h⟩ := improve_succ_eq_ok_iff.mp h
    split_ifs at h
    · exact sameRow_of_write h hk
    · exact sameRow_of_carry h hk

/-! ### What there is room for -/

/-- **Columns of `rows` rows**, for points of dimension `n` and values of `m` constraints. -/
structure Sized (c : Columns) (n m rows : ℕ) : Prop where
  size_f : c.f.size = rows
  cols_g : c.g.cols = m
  size_g : c.g.rows.size = rows
  cols_x : c.x.cols = n
  size_x : c.x.rows.size = rows

namespace Sized

variable (hc : c.Sized n m rows)

include hc

/-- **When a sample can be written.** -/
lemma exists_write_iff : (∃ c', c.write i y = .ok c') ↔
    i < rows ∧ Table.Takes m y.constraints ∧ Table.Takes n y.point := by
  simp only [write_eq_ok_iff]
  constructor
  · rintro ⟨c', hf, hg, hx⟩
    obtain ⟨hi, hg⟩ := Table.exists_assign_iff.mp ⟨_, hg⟩
    obtain ⟨-, hx⟩ := Table.exists_assign_iff.mp ⟨_, hx⟩
    rw [hc.cols_g] at hg
    rw [hc.cols_x] at hx
    exact ⟨hi.trans_eq hc.size_g, hg, hx⟩
  · rintro ⟨hi, hg, hx⟩
    obtain ⟨f, hf⟩ := (exists_put_iff (a := y.objective)).mpr (hi.trans_eq hc.size_f.symm)
    obtain ⟨g, hg⟩ := Table.exists_assign_iff.mpr ⟨hi.trans_eq hc.size_g.symm, hc.cols_g ▸ hg⟩
    obtain ⟨x, hx⟩ := Table.exists_assign_iff.mpr ⟨hi.trans_eq hc.size_x.symm, hc.cols_x ▸ hx⟩
    exact ⟨⟨f, g, x⟩, hf, hg, hx⟩

lemma exists_objective (hi : i < rows) : ∃ least, c.f[i]? = some least :=
  ⟨_, Array.getElem?_eq_getElem (hi.trans_eq hc.size_f.symm)⟩

/-- A row can be copied wherever there is a row behind it. -/
lemma exists_carry (hi : i + 1 < rows) : ∃ c', c.carry i = .ok c' := by
  obtain ⟨least, hleast⟩ := hc.exists_objective ((Nat.lt_succ_self i).trans hi)
  obtain ⟨f, hf⟩ := (exists_put_iff (a := least)).mpr (hi.trans_eq hc.size_f.symm)
  obtain ⟨g, hg⟩ := Table.exists_carry_iff.mpr (hi.trans_eq hc.size_g.symm)
  obtain ⟨x, hx⟩ := Table.exists_carry_iff.mpr (hi.trans_eq hc.size_x.symm)
  exact ⟨⟨f, g, x⟩, carry_eq_ok_iff.mpr ⟨hg, hx, least, hleast, hf⟩⟩

/-- What can be written can be compared with the row before as well. -/
lemma exists_improve (h : ∃ c', c.write i y = .ok c') : ∃ c', c.improve i y = .ok c' := by
  obtain ⟨hi, -⟩ := hc.exists_write_iff.mp h
  cases i with
  | zero => exact h
  | succ i =>
    obtain ⟨least, hleast⟩ := hc.exists_objective ((Nat.lt_succ_self i).trans hi)
    simp only [improve_succ_eq_ok_iff, hleast, Option.some.injEq, exists_eq_left']
    split_ifs
    · exact h
    · exact hc.exists_carry hi

end Sized

end Columns

/-! ## All stores -/

namespace Stores

variable {st st' : Stores} {n m rows k evaluations : ℕ} {y : Sample}

lemma record_eq_ok_iff : st.record y evaluations = .ok st' ↔
    st.current.write st.count y = .ok st'.current ∧ st.best.improve st.count y = .ok st'.best ∧
      put st.samplesAtIteration st.count evaluations = .ok st'.samplesAtIteration ∧
      st'.count = st.count + 1 := by
  obtain ⟨count', current', best', counts'⟩ := st'
  simp only [record, bind_eq_ok_iff, pure, Except.pure, Except.ok.injEq, mk.injEq]
  constructor
  · rintro ⟨current, hc, best, hb, counts, hs, rfl, rfl, rfl, rfl⟩
    exact ⟨hc, hb, hs, rfl⟩
  · rintro ⟨hc, hb, hs, rfl⟩
    exact ⟨current', hc, best', hb, counts', hs, rfl, rfl, rfl, rfl⟩

/-- **All stores are the same in row `k`.** -/
structure SameRow (st st' : Stores) (k : ℕ) : Prop where
  current : st.current.SameRow st'.current k
  best : st.best.SameRow st'.best k
  samplesAtIteration : st'.samplesAtIteration[k]? = st.samplesAtIteration[k]?

lemma SameRow.refl (st : Stores) (k : ℕ) : SameRow st st k := ⟨.refl _ k, .refl _ k, rfl⟩

lemma SameRow.trans {st'' : Stores} (h : SameRow st st' k) (h' : SameRow st' st'' k) :
    SameRow st st'' k :=
  ⟨h.current.trans h'.current, h.best.trans h'.best,
    h'.samplesAtIteration.trans h.samplesAtIteration⟩

/-- **A record leaves all rows alone** but that at the index. -/
theorem sameRow_of_record (h : st.record y evaluations = .ok st') (hk : k ≠ st.count) :
    st.SameRow st' k := by
  obtain ⟨hc, hb, hs, -⟩ := record_eq_ok_iff.mp h
  exact ⟨Columns.sameRow_of_write hc hk, Columns.sameRow_of_improve hb hk, getElem?_of_put hs hk⟩

/-- **Stores of `rows` rows**, for points of dimension `n` and values of `m` constraints. -/
structure Sized (st : Stores) (n m rows : ℕ) : Prop where
  current : st.current.Sized n m rows
  best : st.best.Sized n m rows
  size_samplesAtIteration : st.samplesAtIteration.size = rows

/-- **When a sample can be recorded**: there is a row left, and there are as many values as entries
or one for all of them. -/
theorem Sized.exists_record_iff (hst : st.Sized n m rows) (evaluations : ℕ) :
    (∃ st', st.record y evaluations = .ok st') ↔
      st.count < rows ∧ Table.Takes m y.constraints ∧ Table.Takes n y.point := by
  constructor
  · rintro ⟨st', h⟩
    obtain ⟨hc, -⟩ := record_eq_ok_iff.mp h
    exact hst.current.exists_write_iff.mp ⟨_, hc⟩
  · intro h
    obtain ⟨current, hc⟩ := hst.current.exists_write_iff.mpr h
    obtain ⟨best, hb⟩ := hst.best.exists_improve (hst.best.exists_write_iff.mpr h)
    obtain ⟨counts, hs⟩ := (exists_put_iff (a := evaluations)).mpr
      (h.1.trans_eq hst.size_samplesAtIteration.symm)
    exact ⟨⟨_, current, best, counts⟩, record_eq_ok_iff.mpr ⟨hc, hb, hs, rfl⟩⟩

/-- One row holds one record. -/
example : (do
    let st ← reserve 1 0 1
    let st ← st.record ⟨[0.0], 1.0, []⟩ 2
    st.record ⟨[0.0], 1.0, []⟩ 3) = .error (.outOfRange 1 1) := rfl

end Stores

end NelderMead
