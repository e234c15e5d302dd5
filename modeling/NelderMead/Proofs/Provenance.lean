import NelderMead.Proofs.Ending
import NelderMead.Proofs.EntryPoints

/-!
# Where rows come from

Every row of a result shows an evaluation of the run as a whole: its point, its objective and its
constraints come from one and the same evaluation, made before the row was recorded.  So does the
best sample so far.  Functions may keep a state, so asking again could bring another value; the
rows show what was returned at the time.

* `SearchResult.sample?`, `SearchResult.best?` — a row of the columns as a sample.
* `Row.From`, **`Progress.rows_from`** — that both samples of a row are among those before it.
* `Reports`, **`Problem.Completes.reports`** — the same of a result, with the log it refers to.
-/

namespace NelderMead

variable {σ : Type}

/-! ## Rows of columns -/

/-- Row `i` of columns of points, objectives and constraints. -/
def Sample.ofColumns (x : List Point) (f : List Float) (g : List Point) (i : ℕ) :
    Option Sample := do
  return ⟨← x[i]?, ← f[i]?, ← g[i]?⟩

lemma Sample.ofColumns_map {α : Type} (rows : List α) (read : α → Sample) (i : ℕ) :
    ofColumns (rows.map fun row => (read row).point) (rows.map fun row => (read row).objective)
      (rows.map fun row => (read row).constraints) i = rows[i]?.map read := by
  simp only [ofColumns, List.getElem?_map]
  cases rows[i]? <;> rfl

namespace SearchResult

/-- The best vertex of row `i`. -/
def sample? (r : SearchResult) (i : ℕ) : Option Sample :=
  Sample.ofColumns r.x.rows r.f r.g.rows i

/-- The best sample so far of row `i`. -/
def best? (r : SearchResult) (i : ℕ) : Option Sample :=
  Sample.ofColumns r.bestX.rows r.bestF r.bestG.rows i

variable {r : SearchResult} {evaluations : ℕ} {rows : List Row}

lemma Shows.sample?_eq (h : r.Shows evaluations rows) (i : ℕ) :
    r.sample? i = rows[i]?.map Row.current := by
  rw [sample?, h.x, h.f, h.g]
  exact Sample.ofColumns_map rows Row.current i

lemma Shows.best?_eq (h : r.Shows evaluations rows) (i : ℕ) :
    r.best? i = rows[i]?.map Row.best := by
  rw [best?, h.bestX, h.bestF, h.bestG]
  exact Sample.ofColumns_map rows Row.best i

end SearchResult

/-! ## Rows of a trace -/

/-- **Both samples of the row** are among the samples `ys` that it counts. -/
structure Row.From (ys : List Sample) (row : Row) : Prop where
  evaluations_le : row.evaluations ≤ ys.length
  current : row.current ∈ ys.take row.evaluations
  best : row.best ∈ ys.take row.evaluations

lemma Row.From.append {ys : List Sample} {row : Row} (h : row.From ys) (zs : List Sample) :
    row.From (ys ++ zs) := by
  obtain ⟨hle, hcurrent, hbest⟩ := h
  have htake : (ys ++ zs).take row.evaluations = ys.take row.evaluations :=
    List.take_append_of_le_length hle
  refine ⟨?_, htake ▸ hcurrent, htake ▸ hbest⟩
  rw [List.length_append]
  exact hle.trans (Nat.le_add_right _ _)

/-- **Every row shows samples from before it.** -/
theorem Progress.rows_from {p : PenaltyFunction σ} {n k : ℕ} {points : List Point}
    {j₀ j : Journal σ} {vs : List Vertex} {s : Search} (h : Progress p n points j₀ k vs s j) :
    ∀ row ∈ s.trace.rows.toList, row.From (vs.map Vertex.sample) := by
  induction h with
  | first => exact List.forall_mem_nil _
  | @iterate k vs ws s j j₁ t m before describes chosen evaluated ih =>
    rw [Search.rows_next, List.map_append]
    refine List.forall_mem_append.mpr ⟨fun row hrow => (ih row hrow).append _, ?_⟩
    refine List.forall_mem_singleton.mpr (Row.From.append ?_ _)
    have hcount : s.evaluations = (vs.map Vertex.sample).length := by
      rw [before.evaluations_eq, List.length_map]
    have hcurrent : t.best.sample ∈ vs.map Vertex.sample :=
      List.mem_map_of_mem (before.simplex_subset describes.best_mem)
    refine ⟨hcount.le, ?_, ?_⟩
    · rwa [hcount, List.take_length]
    · rw [hcount, List.take_length]
      rcases Trace.better_mem s.trace.rows.back? t.best.sample with heq | ⟨row, hrow, heq⟩
      · rwa [heq]
      · rw [heq]
        have hrow : row ∈ s.trace.rows.toList := Array.mem_toList_iff.mpr (Array.mem_of_back? hrow)
        exact List.mem_of_mem_take (ih row hrow).best

/-! ## The rows of a result -/

/-- The samples that `read` finds in the rows of the result `r` are evaluations that the rows
count. -/
def ReadsEvaluations (r : SearchResult) (maxIter : ℕ) (ys : List Sample)
    (read : ℕ → Option Sample) : Prop :=
  ∀ i < maxIter, ∃ evaluations k y, r.samplesAtIteration[i]? = some evaluations ∧
    k < evaluations ∧ ys[k]? = some y ∧ read i = some y

/-- **What the rows of a result report** of a run that began in the world `w`. -/
structure Reports (q : Problem σ) (maxIter : ℕ) (w : σ) (r : SearchResult) (j : Journal σ) :
    Prop where
  /-- The log leaves out no evaluation. -/
  history : History q.objective q.constraints w j.calls.toList j.world
  /-- The calls are those of the samples, one after the other. -/
  blocks : j.calls.toList = j.samples.flatMap Sample.calls
  current : ReadsEvaluations r maxIter j.samples r.sample?
  best : ReadsEvaluations r maxIter j.samples r.best?
  /-- Of functions of the point alone, the rows show the values. -/
  values : ∀ i y, r.sample? i = some y ∨ r.best? i = some y →
    y.ShowsValues q.objective q.constraints

lemma readsEvaluations_of_rows {r : SearchResult} {evaluations maxIter : ℕ} {rows : List Row}
    {ys : List Sample} {read : ℕ → Option Sample} {column : Row → Sample}
    (hshows : r.Shows evaluations rows) (hlength : rows.length = maxIter)
    (hread : ∀ i, read i = rows[i]?.map column)
    (hfrom : ∀ row ∈ rows, column row ∈ ys.take row.evaluations) :
    ReadsEvaluations r maxIter ys read := by
  intro i hi
  have hrow : rows[i]? = some rows[i] := List.getElem?_eq_getElem (hlength ▸ hi)
  obtain ⟨k, hk⟩ := List.mem_iff_getElem?.mp (hfrom _ (List.mem_of_getElem? hrow))
  have hlt : k < rows[i].evaluations := by
    have hlength := (List.getElem?_eq_some_iff.mp hk).1
    rw [List.length_take] at hlength
    omega
  refine ⟨rows[i].evaluations, k, column rows[i], ?_, hlt, ?_, ?_⟩
  · rw [hshows.samplesAtIteration, List.getElem?_map, hrow, Option.map_some]
  · rwa [List.getElem?_take_of_lt hlt] at hk
  · rw [hread, hrow, Option.map_some]

/-- The log of a run that succeeds leaves out no evaluation. -/
lemma Problem.Completes.history {q : Problem σ} {maxIter : ℕ} {o : Options} {w : σ}
    {points : List Point} {r : SearchResult} {j : Journal σ}
    (h : q.Completes maxIter o w points r j) :
    History q.objective q.constraints w j.calls.toList j.world := by
  obtain ⟨start, -, hrun⟩ := h.exists_start
  obtain ⟨j₀, rfl, hempty, hends⟩ := (Problem.accepts_of_run hrun).ends maxIter w
  rw [hrun] at hends
  cases hends with
  | returned value whole grows => exact grows.calls_eq hempty ▸ grows.history

/-- **Every row is an evaluation of the run.** -/
theorem Problem.Completes.reports {q : Problem σ} {maxIter : ℕ} {o : Options} {w : σ}
    {points : List Point} {r : SearchResult} {j : Journal σ}
    (h : q.Completes maxIter o w points r j) : Reports q maxIter w r j := by
  obtain ⟨f, hf⟩ := h.exists_penalized
  obtain ⟨-, -, vs, s, j₀, j₁, hprogress, hcalls, hsamples, hshows⟩ := h.progress hf
  have hlength : s.trace.rows.toList.length = maxIter := by
    rw [Array.length_toList]
    exact hprogress.size_trace
  have hfrom := hprogress.rows_from
  rw [← hsamples] at hcalls hfrom
  have hvalues : ∀ y ∈ j.samples, y.ShowsValues q.objective q.constraints := by
    intro y hy
    refine h.history.showsValues ?_ ?_
    · rw [hcalls]
      exact fun c hc => List.mem_flatMap.mpr ⟨y, hy, hc⟩
    · rw [hsamples] at hy
      obtain ⟨v, hv, rfl⟩ := List.mem_map.mp hy
      exact (hprogress.consistent v hv).length_constraints.trans (constraintCount_of_penalized hf)
  refine
    { history := h.history
      blocks := hcalls
      current := readsEvaluations_of_rows hshows hlength hshows.sample?_eq fun row hrow =>
        (hfrom row hrow).current
      best := readsEvaluations_of_rows hshows hlength hshows.best?_eq fun row hrow =>
        (hfrom row hrow).best
      values := ?_ }
  intro i y hy
  rw [hshows.sample?_eq, hshows.best?_eq, Option.map_eq_some_iff, Option.map_eq_some_iff] at hy
  rcases hy with ⟨row, hrow, rfl⟩ | ⟨row, hrow, rfl⟩
  · exact hvalues _ (List.mem_of_mem_take (hfrom row (List.mem_of_getElem? hrow)).current)
  · exact hvalues _ (List.mem_of_mem_take (hfrom row (List.mem_of_getElem? hrow)).best)

theorem reports_square : ∃ r j, square.Completes 2 {} () segment.rows r j ∧
    Reports square 2 () r j := by
  obtain ⟨r, j, hrun, -⟩ := completes_square (P := fun _ _ => True) (by decide +kernel)
  exact ⟨r, j, hrun, hrun.reports⟩

end NelderMead
