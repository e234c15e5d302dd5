import NelderMead.Proofs.Feasible
import NelderMead.Proofs.Provenance
import NelderMead.Proofs.Stuck

/-!
# The best so far

The best sample of a row is the sample of an earlier row or of the row itself.  It moves to a row
only if that has a strictly smaller objective, so of equal objectives the first keeps it, and nothing
takes its place from or with a value that is not a number.

* `incumbent` — the index of the row that holds the best sample; **`firstMinimum_incumbent`** says
  that it is the first at which the least number is attained.
* `Recorded` — rows recorded one after the other; **`Recorded.best_eq`** says that the best sample of
  each is that of its incumbent, and `Progress.recorded` that the rows of a search are of this kind.
* `TracksMinimum`, **`Problem.Completes.tracksMinimum`** — the best so far of a result is the running
  minimum of its rows.
-/

namespace NelderMead

variable {σ : Type}

/-! ## The first minimum of some values -/

/-- The value at index `i`, and zero behind the last one. -/
def valueAt (fs : List Float) (i : ℕ) : Float := fs.getD i 0.0

lemma valueAt_mem {fs : List Float} {i : ℕ} (h : i < fs.length) : valueAt fs i ∈ fs := by
  rw [valueAt, List.getD_eq_getElem?_getD, List.getElem?_eq_getElem h]
  exact List.getElem_mem h

section Values

variable {f : ℕ → Float} {i k l : ℕ}

/-- **The index of the incumbent** among the values up to index `i`. -/
def incumbent (f : ℕ → Float) : ℕ → ℕ
  | 0 => 0
  | i + 1 => if f (i + 1) < f (incumbent f i) then i + 1 else incumbent f i

lemma incumbent_le (f : ℕ → Float) (i : ℕ) : incumbent f i ≤ i := by
  induction i with
  | zero => exact le_rfl
  | succ i ih =>
    rw [incumbent]
    split_ifs
    · exact le_rfl
    · exact ih.trans (Nat.le_succ i)

/-- The incumbent does not depend on what comes later. -/
lemma incumbent_congr {g : ℕ → Float} (h : ∀ l ≤ i, f l = g l) :
    incumbent f i = incumbent g i := by
  induction i with
  | zero => rfl
  | succ i ih =>
    have hbefore := ih fun l hl => h l (hl.trans (Nat.le_succ i))
    have hle := (incumbent_le g i).trans (Nat.le_succ i)
    rw [incumbent, incumbent, hbefore, h (i + 1) le_rfl, h _ hle]

/-- **Index `k` is the first** up to `i` at which the least of the numbers is attained. -/
structure FirstMinimum (f : ℕ → Float) (i k : ℕ) : Prop where
  le : k ≤ i
  isNaN_eq : (f k).isNaN = false
  least : ∀ l ≤ i, (f l).isNaN = false → f k ≤ f l
  first : ∀ l < k, (f l).isNaN = false → f k < f l

/-- There is only one first minimum. -/
lemma FirstMinimum.unique (h : FirstMinimum f i k) (h' : FirstMinimum f i l) : k = l := by
  have hnot : ∀ {a b : ℕ}, FirstMinimum f i a → FirstMinimum f i b → ¬a < b := by
    intro a b ha hb hlt
    have hle := ((le_iff_rankKey _ _).mp (ha.least b hb.le hb.isNaN_eq)).2
    have hfirst := ((lt_iff_rankKey _ _).mp (hb.first a hlt ha.isNaN_eq)).2
    omega
  exact Nat.le_antisymm (not_lt.mp (hnot h' h)) (not_lt.mp (hnot h h'))

/-- **The incumbent is the first minimum**, if it began with a number. -/
theorem firstMinimum_incumbent (hfirst : (f 0).isNaN = false) (i : ℕ) :
    FirstMinimum f i (incumbent f i) := by
  have hrefl : ∀ {x : Float}, x.isNaN = false → x ≤ x := fun hx =>
    (le_iff_rankKey _ _).mpr ⟨hx, le_rfl⟩
  induction i with
  | zero =>
    refine ⟨le_rfl, hfirst, fun l hl hnum => ?_, fun l hl => absurd hl (Nat.not_lt_zero l)⟩
    obtain rfl := Nat.le_zero.mp hl
    exact hrefl hfirst
  | succ i ih =>
    rw [incumbent]
    split_ifs with hlt
    · have hnew : (f (i + 1)).isNaN = false := ((Binary64.lt_iff _ _).mp hlt).1
      have hbefore : ∀ l ≤ i, (f l).isNaN = false → f (i + 1) < f l := by
        intro l hl hnum
        have hkey := ((lt_iff_rankKey _ _).mp hlt).2
        have hkey' := ((le_iff_rankKey _ _).mp (ih.least l hl hnum)).2
        exact (lt_iff_rankKey _ _).mpr ⟨hnum, hkey.trans_le hkey'⟩
      refine ⟨le_rfl, hnew, fun l hl hnum => ?_, fun l hl => hbefore l (Nat.le_of_lt_succ hl)⟩
      rcases Nat.le_succ_iff.mp hl with hl | rfl
      · have hkey := ((lt_iff_rankKey _ _).mp (hbefore l hl hnum)).2
        exact (le_iff_rankKey _ _).mpr ⟨hnum, hkey.le⟩
      · exact hrefl hnum
    · refine ⟨ih.le.trans (Nat.le_succ i), ih.isNaN_eq, fun l hl hnum => ?_, ih.first⟩
      rcases Nat.le_succ_iff.mp hl with hl | rfl
      · exact ih.least l hl hnum
      · exact (le_iff_rankKey _ _).mpr ⟨hnum, rankKey_le_of_not_lt ih.isNaN_eq hlt⟩

/-- What began without a number is never replaced. -/
lemma incumbent_eq_zero (hfirst : (f 0).isNaN = true) (i : ℕ) : incumbent f i = 0 := by
  induction i with
  | zero => rfl
  | succ i ih =>
    have hnot : ¬f (i + 1) < f 0 := fun hlt =>
      Bool.false_ne_true ((((Binary64.lt_iff _ _).mp hlt).2.1).symm.trans hfirst)
    rw [incumbent, ih, if_neg hnot]

end Values

/-! ## Recorded rows -/

/-- The row before row `i`, if there is one. -/
def previousRow (rows : List Row) : ℕ → Option Row
  | 0 => none
  | i + 1 => rows[i]?

/-- **The rows were recorded one after the other**: each shows the better of its own sample and the
best before it. -/
def Recorded (rows : List Row) : Prop :=
  ∀ i row, rows[i]? = some row → row.best = Trace.better (previousRow rows i) row.current

lemma valueAt_objective {rows : List Row} {i : ℕ} {row : Row} (h : rows[i]? = some row) :
    valueAt (rows.map (·.current.objective)) i = row.current.objective := by
  simp [valueAt, h]

lemma recorded_append {rows : List Row} (h : Recorded rows) (y : Sample) (evaluations : ℕ) :
    Recorded (rows ++ [⟨y, Trace.better rows.getLast? y, evaluations⟩]) := by
  intro i row hrow
  rcases lt_trichotomy i rows.length with hlt | rfl | hgt
  · rw [List.getElem?_append_left hlt] at hrow
    rw [h i row hrow]
    cases i with
    | zero => rfl
    | succ i => rw [previousRow, previousRow, List.getElem?_append_left (by omega)]
  · rw [List.getElem?_concat_length, Option.some.injEq] at hrow
    subst hrow
    rcases rows.eq_nil_or_concat with rfl | ⟨before, last, rfl⟩
    · rfl
    · simp [previousRow]
  · rw [List.getElem?_eq_none (by simpa [Nat.succ_le_iff] using hgt)] at hrow
    cases hrow

/-- **The best sample of a row** is the sample of its incumbent. -/
theorem Recorded.best_eq {rows : List Row} (h : Recorded rows) {i : ℕ} {row : Row}
    (hrow : rows[i]? = some row) :
    ∃ first, rows[incumbent (valueAt (rows.map (·.current.objective))) i]? = some first ∧
      row.best = first.current := by
  induction i generalizing row with
  | zero => exact ⟨row, hrow, h 0 row hrow⟩
  | succ i ih =>
    have hlt : i < rows.length := (Nat.lt_succ_self i).trans (List.getElem?_eq_some_iff.mp hrow).1
    have hlast : rows[i]? = some rows[i] := List.getElem?_eq_getElem hlt
    obtain ⟨first, hfirst, hbest⟩ := ih hlast
    have hbetter := h (i + 1) row hrow
    rw [previousRow, hlast, Trace.better, hbest] at hbetter
    rw [incumbent, valueAt_objective hrow, valueAt_objective hfirst, hbetter]
    split_ifs
    · exact ⟨row, hrow, rfl⟩
    · exact ⟨first, hfirst, rfl⟩

/-- The rows of a search are recorded one after the other. -/
lemma Progress.recorded {p : PenaltyFunction σ} {n k : ℕ} {points : List Point}
    {j₀ j : Journal σ} {vs : List Vertex} {s : Search} (h : Progress p n points j₀ k vs s j) :
    Recorded s.trace.rows.toList := by
  induction h with
  | first => exact fun i row hrow => nomatch hrow
  | @iterate k vs ws s j j₁ t m before describes chosen evaluated ih =>
    rw [Search.rows_next, ← Array.getLast?_toList]
    exact recorded_append ih _ _

/-! ## The best so far of a result -/

/-- **The best so far is the running minimum** of the rows. -/
structure TracksMinimum (maxIter : ℕ) (r : SearchResult) : Prop where
  length_f : r.f.length = maxIter
  /-- No row shows a number, or all do. -/
  isNaN : (∀ x ∈ r.f, x.isNaN = true) ∨ ∀ x ∈ r.f, x.isNaN = false
  /-- Of numbers, the first minimum is the best so far, as a whole. -/
  minimum : (∀ x ∈ r.f, x.isNaN = false) → ∀ i < maxIter, ∃ k y,
    FirstMinimum (valueAt r.f) i k ∧ (∀ l, FirstMinimum (valueAt r.f) i l → l = k) ∧
      r.sample? k = some y ∧ r.best? i = some y
  bestF_antitone : (∀ x ∈ r.f, x.isNaN = false) → r.bestF.Pairwise (· ≥ ·)
  bestF_le : (∀ x ∈ r.f, x.isNaN = false) → List.Forall₂ (· ≤ ·) r.bestF r.f
  /-- Where nothing is a number, the first row remains the best so far. -/
  stuck : (∀ x ∈ r.f, x.isNaN = true) → ∀ i < maxIter, ∃ y,
    r.sample? 0 = some y ∧ r.best? i = some y

/-- If all rows show one sample or all show numbers, then no row shows a number or all do. -/
lemma isNaN_objectives {rows : List Row} (h : (∃ y, ∀ row ∈ rows, row.current = y) ∨
      ∀ row ∈ rows, row.current.objective.isNaN = false) :
    (∀ x ∈ rows.map (·.current.objective), x.isNaN = true) ∨
      ∀ x ∈ rows.map (·.current.objective), x.isNaN = false := by
  rw [List.forall_mem_map, List.forall_mem_map]
  rcases h with ⟨y, hy⟩ | hnum
  · rcases hnan : y.objective.isNaN with _ | _
    · exact Or.inr fun row hrow => hy row hrow ▸ hnan
    · exact Or.inl fun row hrow => hy row hrow ▸ hnan
  · exact Or.inr hnum

/-- Of some numbers, the incumbent is always the first minimum. -/
lemma firstMinimum_of_numbers {fs : List Float} (hnum : ∀ x ∈ fs, x.isNaN = false) {i : ℕ}
    (hi : i < fs.length) : FirstMinimum (valueAt fs) i (incumbent (valueAt fs) i) :=
  firstMinimum_incumbent (hnum _ (valueAt_mem ((Nat.zero_le i).trans_lt hi))) i

namespace SearchResult.Shows

variable {r : SearchResult} {evaluations : ℕ} {rows : List Row}

/-- The best so far of a row is the sample of its incumbent. -/
lemma exists_incumbent (h : r.Shows evaluations rows) (hrows : Recorded rows) {i : ℕ}
    (hi : i < rows.length) :
    ∃ y, r.sample? (incumbent (valueAt r.f) i) = some y ∧ r.best? i = some y ∧
      r.bestF[i]? = some (valueAt r.f (incumbent (valueAt r.f) i)) := by
  have hrow : rows[i]? = some rows[i] := List.getElem?_eq_getElem hi
  obtain ⟨first, hfirst, hbest⟩ := hrows.best_eq hrow
  have hvalue := valueAt_objective hfirst
  rw [← h.f] at hfirst hvalue
  refine ⟨first.current, ?_, ?_, ?_⟩
  · rw [h.sample?_eq, hfirst, Option.map_some]
  · rw [h.best?_eq, hrow, Option.map_some, hbest]
  · rw [h.bestF, List.getElem?_map, hrow, Option.map_some, hbest, hvalue]

/-- The minimum of more numbers is no larger. -/
lemma bestF_antitone (h : r.Shows evaluations rows) (hrows : Recorded rows)
    (hnum : ∀ x ∈ r.f, x.isNaN = false) : r.bestF.Pairwise (· ≥ ·) := by
  have hlength : r.bestF.length = rows.length := by
    rw [h.bestF, List.length_map]
  have hlengthf : r.f.length = rows.length := by
    rw [h.f, List.length_map]
  have hminimum : ∀ i < rows.length, FirstMinimum (valueAt r.f) i (incumbent (valueAt r.f) i) :=
    fun i hi => firstMinimum_of_numbers hnum (hi.trans_eq hlengthf.symm)
  rw [List.pairwise_iff_getElem]
  intro i k hi hk hik
  have hearly := hminimum i (hlength ▸ hi)
  have hlate := hminimum k (hlength ▸ hk)
  obtain ⟨-, -, -, hbesti⟩ := h.exists_incumbent hrows (hlength ▸ hi)
  obtain ⟨-, -, -, hbestk⟩ := h.exists_incumbent hrows (hlength ▸ hk)
  rw [List.getElem?_eq_getElem hi, Option.some.injEq] at hbesti
  rw [List.getElem?_eq_getElem hk, Option.some.injEq] at hbestk
  rw [hbesti, hbestk]
  exact hlate.least _ (hearly.le.trans hik.le) hearly.isNaN_eq

end SearchResult.Shows

/-- **A run that succeeds tracks the minimum of its rows.** -/
theorem Problem.Completes.tracksMinimum {q : Problem σ} {maxIter : ℕ} {o : Options} {w : σ}
    {points : List Point} {r : SearchResult} {j : Journal σ}
    (h : q.Completes maxIter o w points r j) : TracksMinimum maxIter r := by
  obtain ⟨f, hf⟩ := h.exists_penalized
  obtain ⟨hpoints, hdim, j₀, -, hsearch⟩ := h.search hf
  obtain ⟨s, j₁, hvisits, -, hshows⟩ := visits_of_search hsearch
  obtain ⟨vs, hprogress⟩ := Progress.of_visits q.dimension_pos hpoints hvisits
  have hrecorded := hprogress.recorded
  have hlength : s.trace.rows.toList.length = maxIter := by
    rw [Array.length_toList]
    exact hprogress.size_trace
  have hlengthf : r.f.length = maxIter := by
    rw [hshows.f, List.length_map, hlength]
  refine
    { length_f := hlengthf
      isNaN := ?_
      minimum := fun hnum i hi => ?_
      bestF_antitone := hshows.bestF_antitone hrecorded
      bestF_le := fun hnum => ?_
      stuck := fun hnan i hi => ?_ }
  · rw [hshows.f]
    exact isNaN_objectives (hvisits.rows_cases q.dimension_pos hpoints hdim)
  · have hminimum := firstMinimum_of_numbers hnum (hlengthf ▸ hi)
    obtain ⟨y, hsample, hbest, -⟩ := hshows.exists_incumbent hrecorded (hlength ▸ hi)
    exact ⟨_, y, hminimum, fun l hl => hl.unique hminimum, hsample, hbest⟩
  · rw [hshows.bestF, hshows.f, List.forall₂_map_left_iff, List.forall₂_map_right_iff,
      List.forall₂_same]
    rw [hshows.f] at hnum
    exact hprogress.best_le_current (List.forall_mem_map.mp hnum)
  · have hfirst := hnan _ (valueAt_mem (hlengthf ▸ (Nat.zero_le i).trans_lt hi))
    obtain ⟨y, hsample, hbest, -⟩ := hshows.exists_incumbent hrecorded (hlength ▸ hi)
    rw [incumbent_eq_zero hfirst] at hsample
    exact ⟨y, hsample, hbest⟩

theorem tracksMinimum_square : ∃ r j, square.Completes 2 {} () segment.rows r j ∧
    TracksMinimum 2 r := by
  obtain ⟨r, j, hrun, -⟩ := completes_square (P := fun _ _ => True) (by decide +kernel)
  exact ⟨r, j, hrun, hrun.tracksMinimum⟩

end NelderMead
