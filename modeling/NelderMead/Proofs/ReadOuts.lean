import NelderMead.Proofs.Incumbent

/-!
# Read-outs of a result

A result and the output made of it are read from the last row of the best so far, each by a count
and by columns of its own.  A run records one row for each iteration, so all of them find the same
sample there, and they find nothing if there was no iteration.

* `SearchResult.ShowsLast`, `SearchResult.ShowsNothing` — what the read-outs of a result show.
* `SearchResult.Shows.showsLast`, `SearchResult.Shows.showsNothing` — they show the last row.
* `SearchResult.Shows.last_le` — the last row shows the minimum of all rows.
* `Problem.ReadOuts`, `Problem.Completes.readOuts` — the read-outs of a run that succeeds.
* **`Problem.readOuts_agree`** — those of all runs on a problem, and what a solver tells of them.
-/

namespace NelderMead

variable {σ : Type}

/-! ## Reading the last row -/

namespace SearchResult

/-- **All read-outs show the sample `y`.** -/
structure ShowsLast (r : SearchResult) (y : Sample) : Prop where
  fmin : r.fmin = .ok (some y.objective)
  xmin : r.xmin = .ok (some y.point)
  gmin : r.gmin = .ok (some y.constraints)
  best : r.output.best = .ok (some (y.objective, y.point))
  isFeasible : ∀ tol, r.output.isFeasible tol = .ok (y.constraints.all fun gi => decide (gi ≤ tol))

/-- **No read-out shows anything**, and nothing is feasible. -/
structure ShowsNothing (r : SearchResult) : Prop where
  fmin : r.fmin = .ok none
  xmin : r.xmin = .ok none
  gmin : r.gmin = .ok none
  best : r.output.best = .ok none
  isFeasible : ∀ tol, r.output.isFeasible tol = .ok false

variable {r : SearchResult} {evaluations k : ℕ} {rows : List Row} {α : Type}
  {read : ℕ → Except Fault α} {a : α}

lemma atLast_zero (h : r.iterations = 0) (read : ℕ → Except Fault α) :
    r.atLast read = .ok none := by
  rw [atLast, h]

lemma atLast_succ (h : r.iterations = k + 1) (hread : read k = .ok a) :
    r.atLast read = .ok (some a) := by
  rw [atLast, h]
  exact congrArg (some <$> ·) hread

end SearchResult

namespace SolverOutput

variable {out : SolverOutput} {k : ℕ} {α : Type} {read : ℕ → Except Fault α} {a : α}

lemma atLast_zero (h : out.length = 0) (read : ℕ → Except Fault α) :
    out.atLast read = .ok none := by
  rw [atLast, h]

lemma atLast_succ (h : out.length = k + 1) (hread : read k = .ok a) :
    out.atLast read = .ok (some a) := by
  rw [atLast, h]
  exact congrArg (some <$> ·) hread

end SolverOutput

namespace SearchResult.Shows

variable {r : SearchResult} {evaluations : ℕ} {rows : List Row}

/-- The output has one row for each iteration. -/
lemma length_output (h : r.Shows evaluations rows) : r.output.length = rows.length := by
  rw [output, SolverOutput.length, h.bestF, List.length_map]

/-- Without rows there is nothing to show. -/
lemma showsNothing (h : r.Shows evaluations rows) (hrows : rows.length = 0) : r.ShowsNothing where
  fmin := atLast_zero (h.iterations_eq.trans hrows) _
  xmin := atLast_zero (h.iterations_eq.trans hrows) _
  gmin := atLast_zero (h.iterations_eq.trans hrows) _
  best := SolverOutput.atLast_zero (h.length_output.trans hrows) _
  isFeasible tol := by
    rw [SolverOutput.isFeasible, SolverOutput.atLast_zero (h.length_output.trans hrows)]
    rfl

/-- **The read-outs show the last row.** -/
theorem showsLast (h : r.Shows evaluations rows) {k : ℕ} {row : Row} (hrows : rows.length = k + 1)
    (hrow : rows[k]? = some row) : r.ShowsLast row.best := by
  have hiterations := h.iterations_eq.trans hrows
  have hlength := h.length_output.trans hrows
  have hf : entry r.bestF k = .ok row.best.objective := by
    rw [entry_eq_ok_iff, h.bestF, List.getElem?_map, hrow, Option.map_some]
  have hx : r.bestX.row k = .ok row.best.point := by
    rw [Matrix.row, entry_eq_ok_iff, h.bestX, List.getElem?_map, hrow, Option.map_some]
  have hg : r.bestG.row k = .ok row.best.constraints := by
    rw [Matrix.row, entry_eq_ok_iff, h.bestG, List.getElem?_map, hrow, Option.map_some]
  refine
    { fmin := atLast_succ hiterations hf
      xmin := atLast_succ hiterations hx
      gmin := atLast_succ hiterations hg
      best := SolverOutput.atLast_succ hlength ?_
      isFeasible := fun tol => ?_ }
  · exact bind_eq_ok_iff.mpr ⟨_, hf, bind_eq_ok_iff.mpr ⟨_, hx, rfl⟩⟩
  · exact bind_eq_ok_iff.mpr ⟨_, SolverOutput.atLast_succ hlength hg, rfl⟩

/-- **The last row shows the minimum** of all rows, if they show numbers. -/
theorem last_le (h : r.Shows evaluations rows) (hrecorded : Recorded rows)
    (hnum : ∀ x ∈ r.f, x.isNaN = false) {k : ℕ} {row : Row} (hrows : rows.length = k + 1)
    (hrow : rows[k]? = some row) :
    row.best.objective ∈ r.f ∧ ∀ x ∈ r.f, row.best.objective ≤ x := by
  have hlength : r.f.length = k + 1 := by rw [h.f, List.length_map, hrows]
  have hminimum := firstMinimum_of_numbers hnum (i := k) (by omega)
  obtain ⟨first, hfirst, hbest⟩ := hrecorded.best_eq hrow
  have hvalue : row.best.objective = valueAt r.f (incumbent (valueAt r.f) k) := by
    rw [← h.f] at hfirst
    rw [hbest, h.f, ← valueAt_objective hfirst, h.f]
  rw [hvalue]
  refine ⟨valueAt_mem (hminimum.le.trans_lt (by omega)), fun x hx => ?_⟩
  obtain ⟨l, hl, rfl⟩ := List.mem_iff_getElem.mp hx
  have hxl : valueAt r.f l = r.f[l] := by
    rw [valueAt, List.getD_eq_getElem?_getD, List.getElem?_eq_getElem hl, Option.getD_some]
  rw [← hxl]
  exact hminimum.least l (by omega) (hxl ▸ hnum _ hx)

end SearchResult.Shows

/-! ## Runs of a problem -/

namespace Problem

variable {q : Problem σ} {maxIter : ℕ} {o : Options} {w : σ} {points : List Point}
  {r : SearchResult} {j : Journal σ}

/-- **The read-outs of a result** of `maxIter` iterations on the problem `q`. -/
structure ReadOuts (q : Problem σ) (maxIter : ℕ) (r : SearchResult) : Prop where
  iterations_eq : r.iterations = maxIter
  length_output : r.output.length = maxIter
  rowCount_output : r.output.x.rowCount = maxIter ∧ r.output.g.rowCount = maxIter
  isEmpty_iff : r.output.isEmpty = true ↔ maxIter = 0
  evaluations_eq : r.output.evaluations = r.evaluations
  nothing : maxIter = 0 → r.ShowsNothing
  /-- All read-outs show the last row of the best so far, which shows the minimum of all rows and
  the values of functions that depend on the point alone. -/
  last : 0 < maxIter → ∃ y, r.best? (maxIter - 1) = some y ∧ r.ShowsLast y ∧
    y.ShowsValues q.objective q.constraints ∧
    ((∀ x ∈ r.f, x.isNaN = false) → y.objective ∈ r.f ∧ ∀ x ∈ r.f, y.objective ≤ x)
  isFeasible : ∀ tol, ∃ feasible, r.output.isFeasible tol = .ok feasible ∧
    (feasible = true ↔ 0 < maxIter ∧ ∀ gs, r.gmin = .ok (some gs) → ∀ gi ∈ gs, gi ≤ tol)

/-- All samples of a run that succeeds show the values at their points. -/
lemma Completes.showsValues (h : q.Completes maxIter o w points r j) {y : Sample}
    (hy : y ∈ j.samples) : y.ShowsValues q.objective q.constraints := by
  obtain ⟨f, hf⟩ := h.exists_penalized
  obtain ⟨-, -, vs, s, j₀, j₁, hprogress, hcalls, hsamples, -⟩ := h.progress hf
  refine h.history.showsValues ?_ ?_
  · rw [hcalls, ← hsamples]
    exact fun c hc => List.mem_flatMap.mpr ⟨y, hy, hc⟩
  · rw [hsamples] at hy
    obtain ⟨v, hv, rfl⟩ := List.mem_map.mp hy
    exact (hprogress.consistent v hv).length_constraints.trans (constraintCount_of_penalized hf)

/-- What is feasible can be read off what is shown. -/
lemma exists_isFeasible {maxIter : ℕ} (hnothing : maxIter = 0 → r.ShowsNothing)
    (hlast : 0 < maxIter → ∃ y, r.ShowsLast y) (tol : Float) :
    ∃ feasible, r.output.isFeasible tol = .ok feasible ∧
      (feasible = true ↔ 0 < maxIter ∧ ∀ gs, r.gmin = .ok (some gs) → ∀ gi ∈ gs, gi ≤ tol) := by
  rcases Nat.eq_zero_or_pos maxIter with hzero | hpos
  · refine ⟨false, (hnothing hzero).isFeasible tol, iff_of_false Bool.false_ne_true ?_⟩
    rintro ⟨hpos, -⟩
    exact hpos.ne' hzero
  · obtain ⟨y, hy⟩ := hlast hpos
    refine ⟨_, hy.isFeasible tol, ?_⟩
    rw [List.all_eq_true, and_iff_right hpos]
    constructor
    · intro hall gs hgs gi hgi
      cases hy.gmin.symm.trans hgs
      exact of_decide_eq_true (hall gi hgi)
    · intro hall gi hgi
      exact decide_eq_true (hall _ hy.gmin gi hgi)

/-- The read-outs of a run that succeeds. -/
lemma Completes.readOuts (h : q.Completes maxIter o w points r j) : q.ReadOuts maxIter r := by
  obtain ⟨f, hf⟩ := h.exists_penalized
  obtain ⟨-, -, vs, s, j₀, j₁, hprogress, -, hsamples, hshows⟩ := h.progress hf
  have hrows : s.trace.rows.toList.length = maxIter := by
    rw [Array.length_toList]
    exact hprogress.size_trace
  have hlength := hshows.length_output.trans hrows
  have hnothing : maxIter = 0 → r.ShowsNothing := fun hzero =>
    hshows.showsNothing (hrows.trans hzero)
  have hlast : 0 < maxIter → ∃ y, r.best? (maxIter - 1) = some y ∧ r.ShowsLast y ∧
      y.ShowsValues q.objective q.constraints ∧
      ((∀ x ∈ r.f, x.isNaN = false) → y.objective ∈ r.f ∧ ∀ x ∈ r.f, y.objective ≤ x) := by
    intro hpos
    obtain ⟨row, hrow⟩ := hprogress.exists_row (Nat.sub_one_lt_of_lt hpos)
    have hcount : s.trace.rows.toList.length = maxIter - 1 + 1 :=
      hrows.trans (Nat.sub_add_cancel hpos).symm
    have hfrom := (hprogress.rows_from row (List.mem_of_getElem? hrow)).best
    rw [← hsamples] at hfrom
    refine ⟨row.best, ?_, hshows.showsLast hcount hrow, h.showsValues (List.mem_of_mem_take hfrom),
      fun hnum => hshows.last_le hprogress.recorded hnum hcount hrow⟩
    rw [hshows.best?_eq, hrow, Option.map_some]
  refine
    { iterations_eq := hshows.iterations_eq.trans hrows
      length_output := hlength
      rowCount_output := ?_
      isEmpty_iff := ?_
      evaluations_eq := rfl
      nothing := hnothing
      last := hlast
      isFeasible := exists_isFeasible hnothing fun hpos => ?_ }
  · simp only [SearchResult.output, Matrix.rowCount, hshows.bestX, hshows.bestG, List.length_map,
      hrows, and_self]
  · rw [SolverOutput.isEmpty, List.isEmpty_iff_length_eq_zero]
    exact Eq.congr_left hlength
  · obtain ⟨y, -, hy, -⟩ := hlast hpos
    exact ⟨y, hy⟩

/-- **The read-outs of all runs** of `maxIter` iterations on the problem `q` in the world `w`. -/
structure ReadOutsAgree (q : Problem σ) (maxIter : ℕ) (w : σ) : Prop where
  completes : ∀ {o : Options} {points : List Point} {r : SearchResult} {j : Journal σ},
    q.Completes maxIter o w points r j → q.ReadOuts maxIter r
  /-- Solving is minimising and reading the output off the result, whatever comes of it. -/
  solve : ∀ s : Solver,
    (s.solve q maxIter).1.execIn w =
        (((s.minimize q maxIter).1.execIn w).1.map SearchResult.output,
          ((s.minimize q maxIter).1.execIn w).2) ∧
      (s.solve q maxIter).2 = (s.minimize q maxIter).2

/-- **All read-outs agree.** -/
theorem readOuts_agree (q : Problem σ) (maxIter : ℕ) (w : σ) : q.ReadOutsAgree maxIter w where
  completes h := h.readOuts
  solve s := ⟨s.exec_solve q maxIter w, rfl⟩

end Problem

theorem readOuts_agree_square : ∃ r j, square.Completes 2 {} () segment.rows r j ∧
    square.ReadOuts 2 r := by
  obtain ⟨r, j, hrun, -⟩ := completes_square (P := fun _ _ => True) (by decide +kernel)
  exact ⟨r, j, hrun, (square.readOuts_agree 2 ()).completes hrun⟩

end NelderMead
