import NelderMead.Proofs.Incumbent

/-!
# Recording samples

Any samples can be recorded one after the other, with any counts.  Each record overwrites the next
row of the stores and leaves all others alone.  The stores then show the samples in order, and the
best so far of a row is the sample of its incumbent as a whole: its point, its objective and its
constraints are copied from row to row one by one, and come from one record all the same.

* `Stores.recordAll`, `Trace.recordAll` — records some samples, in stores and by rows;
  **`Stores.Holds.recordAll`** says that the stores show the rows.
* **`Stores.sameRow_of_recordAll`** — what is written is left alone.
* `Trace.recorded_recordAll`, `Trace.getElem?_recordAll` — what the rows show.
* `Columns.row?` — a row of columns as a sample.
* `Stores.ShowsRecords`, **`Stores.Holds.showsRecords`** — the stores after some records.
* `Stores.KeepsRecords`, **`Stores.keepsRecords`** — what stores keep of all that they are given.
-/

namespace NelderMead

/-- The objectives of some records, by index. -/
def objectiveOf (records : List (Sample × ℕ)) : ℕ → Float :=
  valueAt (records.map (·.1.objective))

/-- Objectives do not depend on what comes later. -/
lemma objectiveOf_take (records : List (Sample × ℕ)) {k i : ℕ} (h : i < k) :
    objectiveOf (records.take k) i = objectiveOf records i := by
  rw [objectiveOf, objectiveOf, valueAt, valueAt, List.map_take, List.getD_eq_getElem?_getD,
    List.getD_eq_getElem?_getD, List.getElem?_take_of_lt h]

/-! ## The rows -/

namespace Trace

variable {t : Trace} {records : List (Sample × ℕ)}

/-- **Appends a row for each of some samples**, with its count of evaluations. -/
def recordAll (t : Trace) (records : List (Sample × ℕ)) : Trace :=
  records.foldl (fun t record => t.record record.1 record.2) t

lemma recordAll_cons (t : Trace) (record : Sample × ℕ) (records : List (Sample × ℕ)) :
    t.recordAll (record :: records) = (t.record record.1 record.2).recordAll records := rfl

lemma size_recordAll (t : Trace) (records : List (Sample × ℕ)) :
    (t.recordAll records).size = t.size + records.length := by
  induction records generalizing t with
  | nil => rfl
  | cons record records ih =>
    rw [recordAll_cons, ih, size_record, List.length_cons, Nat.add_right_comm, Nat.add_assoc]

/-- The rows show the records in order. -/
lemma map_rows_recordAll (t : Trace) (records : List (Sample × ℕ)) :
    (t.recordAll records).rows.toList.map (fun row => (row.current, row.evaluations)) =
      t.rows.toList.map (fun row => (row.current, row.evaluations)) ++ records := by
  induction records generalizing t with
  | nil => exact (List.append_nil _).symm
  | cons record records ih =>
    rw [recordAll_cons, ih, toList_rows_record, List.map_append, List.append_assoc]
    rfl

/-- **Each row shows the better** of its own sample and the best before it. -/
theorem recorded_recordAll (h : Recorded t.rows.toList) (records : List (Sample × ℕ)) :
    Recorded (t.recordAll records).rows.toList := by
  induction records generalizing t with
  | nil => exact h
  | cons record records ih =>
    refine ih ?_
    rw [toList_rows_record, ← Array.getLast?_toList]
    exact recorded_append h record.1 record.2

/-- Whatever is read off the records is read off the rows. -/
lemma map_rows_recordAll_empty {α : Type} (read : Sample × ℕ → α) (records : List (Sample × ℕ)) :
    (recordAll {} records).rows.toList.map (fun row => read (row.current, row.evaluations)) =
      records.map read := by
  have hrows : (recordAll {} records).rows.toList.map (fun row => (row.current, row.evaluations)) =
      records := map_rows_recordAll {} records
  conv_rhs => rw [← hrows, List.map_map]
  rfl

lemma size_recordAll_empty (records : List (Sample × ℕ)) :
    (recordAll {} records).size = records.length :=
  (size_recordAll {} records).trans (Nat.zero_add _)

/-- A row shows its record, and as the best so far that of its incumbent. -/
lemma getElem?_recordAll {i : ℕ} {row : Row}
    (h : (recordAll {} records).rows.toList[i]? = some row) :
    records[i]? = some (row.current, row.evaluations) ∧
      ∃ record, records[incumbent (objectiveOf records) i]? = some record ∧
        row.best = record.1 := by
  have hread : ∀ {k : ℕ} {row : Row}, (recordAll {} records).rows.toList[k]? = some row →
      records[k]? = some (row.current, row.evaluations) := by
    intro k row hrow
    rw [← List.map_id records, ← map_rows_recordAll_empty, List.getElem?_map, hrow]
    rfl
  have hempty : Recorded ({} : Trace).rows.toList := fun i row hrow => nomatch hrow
  obtain ⟨first, hfirst, hbest⟩ := (recorded_recordAll hempty records).best_eq h
  rw [map_rows_recordAll_empty (·.1.objective)] at hfirst
  exact ⟨hread h, _, hread hfirst, hbest⟩

end Trace

/-! ## The stores -/

namespace Stores

variable {st st' : Stores} {n m rows : ℕ} {t : Trace} {records : List (Sample × ℕ)}

/-- **Records some samples** one after the other, each with its count of evaluations. -/
def recordAll (st : Stores) (records : List (Sample × ℕ)) : Except Fault Stores :=
  records.foldlM (fun st record => st.record record.1 record.2) st

lemma recordAll_cons (st : Stores) (record : Sample × ℕ) (records : List (Sample × ℕ)) :
    st.recordAll (record :: records) =
      st.record record.1 record.2 >>= fun st' => st'.recordAll records :=
  List.foldlM_cons

/-- **What is written is left alone** by whatever is recorded later. -/
theorem sameRow_of_recordAll (h : st.recordAll records = .ok st') {i : ℕ} (hi : i < st.count) :
    st.SameRow st' i := by
  induction records generalizing st with
  | nil =>
    obtain rfl := Except.ok.inj h
    exact .refl st i
  | cons record records ih =>
    rw [recordAll_cons] at h
    obtain ⟨next, hnext, hrest⟩ := bind_eq_ok_iff.mp h
    obtain ⟨-, -, -, hcount⟩ := record_eq_ok_iff.mp hnext
    exact (sameRow_of_record hnext (by omega)).trans (ih hrest (by omega))

/-- **Records in the stores are records by rows**, as long as there is a row left for each. -/
theorem Holds.recordAll (h : st.Holds n m rows t) (hroom : t.size + records.length ≤ rows)
    (hshape : ∀ record ∈ records, record.1.Shaped n m) :
    ∃ st', st.recordAll records = .ok st' ∧ st'.Holds n m rows (t.recordAll records) := by
  induction records generalizing st t with
  | nil => exact ⟨st, rfl, h⟩
  | cons record records ih =>
    obtain ⟨hrecord, hshape⟩ := List.forall_mem_cons.mp hshape
    rw [List.length_cons] at hroom
    obtain ⟨next, hnext, hholds⟩ := h.record (by omega) hrecord record.2
    obtain ⟨st', hrest, hlast⟩ := ih hholds (by rw [Trace.size_record]; omega) hshape
    exact ⟨st', (recordAll_cons ..).trans (bind_eq_ok_iff.mpr ⟨next, hnext, hrest⟩), hlast⟩

end Stores

/-! ## What the stores show -/

/-- The sample that a row shows before it is written. -/
def Sample.zeros (n m : ℕ) : Sample := ⟨List.replicate n 0.0, 0.0, List.replicate m 0.0⟩

/-- **Row `i` of the columns**: what the three stores have there. -/
def Columns.row? (c : Columns) (i : ℕ) : Option Sample :=
  Sample.ofColumns c.x.rows.toList c.f.toList c.g.rows.toList i

/-- The three stores have a sample in common in each row. -/
lemma Columns.Holds.row?_eq {c : Columns} {n m rows : ℕ} {ys : List Sample}
    (h : c.Holds n m rows ys) (i : ℕ) : c.row? i = (padded (.zeros n m) rows ys)[i]? := by
  have hf : c.f.toList = (padded (.zeros n m) rows ys).map (·.objective) :=
    h.f.trans (map_padded Sample.objective (.zeros n m) rows ys).symm
  have hg : c.g.rows.toList = (padded (.zeros n m) rows ys).map (·.constraints) :=
    h.g.toList_rows.trans (map_padded Sample.constraints (.zeros n m) rows ys).symm
  have hx : c.x.rows.toList = (padded (.zeros n m) rows ys).map (·.point) :=
    h.x.toList_rows.trans (map_padded Sample.point (.zeros n m) rows ys).symm
  rw [row?, hf, hg, hx]
  exact (Sample.ofColumns_map _ id i).trans (congrFun Option.map_id _)

namespace Stores

variable {st : Stores} {n m maxIter : ℕ} {records : List (Sample × ℕ)}

/-- **The stores show the records** in order, zeros behind them, and as the best so far of row `i` the
record of index `j i`. -/
structure ShowsRecords (st : Stores) (n m maxIter : ℕ) (records : List (Sample × ℕ)) (j : ℕ → ℕ) :
    Prop where
  count_eq : st.count = records.length
  sized : st.Sized n m maxIter
  current : ∀ i record, records[i]? = some record →
    st.current.row? i = some record.1 ∧ st.samplesAtIteration[i]? = some record.2
  /-- All three stores show the record of one index. -/
  best : ∀ i < records.length, ∃ record, records[j i]? = some record ∧
    st.best.row? i = some record.1
  unwritten : ∀ i, records.length ≤ i → i < maxIter → st.current.row? i = some (.zeros n m) ∧
    st.best.row? i = some (.zeros n m) ∧ st.samplesAtIteration[i]? = some 0

/-- **Stores that hold the rows of some records** show these. -/
theorem Holds.showsRecords (h : st.Holds n m maxIter (Trace.recordAll {} records))
    (hroom : records.length ≤ maxIter) :
    st.ShowsRecords n m maxIter records (incumbent (objectiveOf records)) := by
  have hsize := Trace.size_recordAll_empty records
  have hlength : ∀ {α : Type} (read : Row → α),
      ((Trace.recordAll {} records).rows.toList.map read).length = records.length := fun _ =>
    ((List.length_map _).trans Array.length_toList).trans hsize
  have hcurrent := Trace.map_rows_recordAll_empty (·.1) records
  have hcounts := Trace.map_rows_recordAll_empty (·.2) records
  refine
    { count_eq := h.count_eq.trans hsize
      sized := h.sized (hsize.trans_le hroom)
      current := fun i record hrecord => ?_
      best := fun i hi => ?_
      unwritten := fun i hi hlt => ?_ }
  · have hi : i < records.length := (List.getElem?_eq_some_iff.mp hrecord).1
    rw [h.current.row?_eq, ← Array.getElem?_toList, h.samplesAtIteration,
      getElem?_padded_of_lt (hi.trans_eq (hlength _).symm),
      getElem?_padded_of_lt (hi.trans_eq (hlength _).symm), hcurrent, hcounts, List.getElem?_map,
      List.getElem?_map, hrecord]
    exact ⟨rfl, rfl⟩
  · have hrow := List.getElem?_eq_getElem (hi.trans_eq (hsize.symm.trans Array.length_toList.symm))
    obtain ⟨-, record, hrecord, hbest⟩ := Trace.getElem?_recordAll hrow
    refine ⟨record, hrecord, ?_⟩
    rw [h.best.row?_eq, getElem?_padded_of_lt (hi.trans_eq (hlength _).symm), List.getElem?_map,
      hrow, Option.map_some, hbest]
  · rw [h.current.row?_eq, h.best.row?_eq, ← Array.getElem?_toList, h.samplesAtIteration]
    exact ⟨getElem?_padded_of_le ((hlength _).trans_le hi) hlt,
      getElem?_padded_of_le ((hlength _).trans_le hi) hlt,
      getElem?_padded_of_le ((hlength _).trans_le hi) hlt⟩

/-! ## All records -/

/-- **What stores keep** of the samples of dimension `n` with `m` constraints that they are given to
record, if they were set aside with `maxIter` rows. -/
structure KeepsRecords (st₀ : Stores) (n m maxIter : ℕ) (records : List (Sample × ℕ)) : Prop where
  /-- After any of the records the stores show those so far.  The incumbents are the same as after
  all of them. -/
  rows : ∀ k ≤ records.length, ∃ st, st₀.recordAll (records.take k) = .ok st ∧
    st.ShowsRecords n m maxIter (records.take k) (incumbent (objectiveOf records))
  /-- Whatever is recorded later, no row of any store changes that was written before. -/
  unaltered : ∀ k ≤ records.length, ∀ st, st₀.recordAll (records.take k) = .ok st →
    ∀ later st', st.recordAll later = .ok st' → ∀ i < k, st.SameRow st' i
  /-- One more record needs a row that is left, and values that fit. -/
  next : ∀ st, st₀.recordAll records = .ok st → ∀ y evaluations,
    (∃ st', st.record y evaluations = .ok st') ↔
      records.length < maxIter ∧ Table.Takes m y.constraints ∧ Table.Takes n y.point
  /-- If the first objective is a number, the incumbent is the first minimum of the numbers. -/
  minimum : (objectiveOf records 0).isNaN = false → ∀ i < records.length, ∀ l,
    FirstMinimum (objectiveOf records) i l ↔ l = incumbent (objectiveOf records) i
  /-- If it is not, the first record remains the incumbent. -/
  stuck : (objectiveOf records 0).isNaN = true →
    ∀ i < records.length, incumbent (objectiveOf records) i = 0

/-- The stores after some records. -/
lemma exists_showsRecords (hreserve : reserve n m maxIter = .ok st) (hcount : records.length ≤ maxIter)
    (hshape : ∀ record ∈ records, record.1.Shaped n m) : ∃ st', st.recordAll records = .ok st' ∧
      st'.ShowsRecords n m maxIter records (incumbent (objectiveOf records)) := by
  obtain ⟨st', hrecords, hholds⟩ :=
    (holds_of_reserve hreserve).recordAll ((Nat.zero_add _).trans_le hcount) hshape
  exact ⟨st', hrecords, hholds.showsRecords hcount⟩

/-- **Stores keep all records** that they were set aside for. -/
theorem keepsRecords (hreserve : reserve n m maxIter = .ok st) (hcount : records.length ≤ maxIter)
    (hshape : ∀ record ∈ records, record.1.Shaped n m) : st.KeepsRecords n m maxIter records := by
  have hprefix : ∀ k ≤ records.length, ∃ st', st.recordAll (records.take k) = .ok st' ∧
      st'.ShowsRecords n m maxIter (records.take k) (incumbent (objectiveOf records)) := by
    intro k hk
    have hlength := List.length_take_of_le hk
    have htake : ∀ record ∈ records.take k, record.1.Shaped n m := fun record h =>
      hshape record (List.mem_of_mem_take h)
    obtain ⟨st', hrecords, hshows⟩ :=
      exists_showsRecords hreserve (hlength.trans_le (hk.trans hcount)) htake
    refine ⟨st', hrecords, { hshows with best := fun i hi => ?_ }⟩
    have hik : i < k := hi.trans_eq hlength
    rw [← incumbent_congr fun l hl => objectiveOf_take records (hl.trans_lt hik)]
    exact hshows.best i hi
  refine
    { rows := hprefix
      unaltered := fun k hk st₁ hst₁ later st₂ hst₂ i hi => ?_
      next := fun st₁ hst₁ y evaluations => ?_
      minimum := fun hfirst i _ l => ?_
      stuck := fun hfirst i _ => incumbent_eq_zero hfirst i }
  · obtain ⟨st', hrecords, hshows⟩ := hprefix k hk
    obtain rfl := Except.ok.inj (hrecords.symm.trans hst₁)
    exact sameRow_of_recordAll hst₂
      (hi.trans_eq (hshows.count_eq.trans (List.length_take_of_le hk)).symm)
  · obtain ⟨st', hrecords, hshows⟩ := exists_showsRecords hreserve hcount hshape
    obtain rfl := Except.ok.inj (hrecords.symm.trans hst₁)
    rw [hshows.sized.exists_record_iff, hshows.count_eq]
  · have hminimum := firstMinimum_incumbent hfirst i
    exact ⟨fun hl => hl.unique hminimum, fun hl => hl ▸ hminimum⟩

end Stores

/-! ## Records with a tie and without a number -/

/-- A tie with the incumbent, a value that is not a number, and a lower value at the end. -/
def logbook : List (Sample × ℕ) :=
  [(⟨[0.0, 0.0], 3.0, [1.0]⟩, 3), (⟨[1.0, 1.0], 5.0, [-1.0]⟩, 4), (⟨[2.0, 2.0], 3.0, [-2.0]⟩, 6),
    (⟨[3.0, 3.0], 0.0 / 0.0, [0.0]⟩, 7), (⟨[4.0, 4.0], 1.0, [0.5]⟩, 9)]

theorem keepsRecords_logbook : ∃ st, Stores.reserve 2 1 6 = .ok st ∧ logbook.length ≤ 6 ∧
    (∀ record ∈ logbook, record.1.Shaped 2 1) ∧
    (List.range 5).map (incumbent (objectiveOf logbook)) = [0, 0, 0, 0, 4] ∧
    st.KeepsRecords 2 1 6 logbook := by
  have hreserve : Stores.reserve 2 1 6 = .ok _ := Stores.reserve_of_fits (by decide)
  have hshape : ∀ record ∈ logbook, record.1.Shaped 2 1 := by decide +kernel
  exact ⟨_, hreserve, by decide, hshape, by decide +kernel,
    Stores.keepsRecords hreserve (by decide) hshape⟩

end NelderMead
