import NelderMead.Proofs.Leading
import NelderMead.Proofs.Penalty

/-!
# Feasible samples

What a run reports as best so far is never beaten by a feasible sample.  Three facts make this: a
row leads the samples before it, the augmented value of a feasible sample is its objective and that
of a row is at least its objective, and the best objective so far is at most that of the row.

* `Progress.best_le_current` — the last of the three.
* `Leads.objective_le` — the first two.
* **`Problem.Completes.feasible`** — the report of a run.
-/

namespace NelderMead

open Binary64

variable {σ : Type} {p : PenaltyFunction σ}

/-- The better of a row that is in order and a new sample is no worse than the sample. -/
lemma Trace.better_le {last : Option Row} {y : Sample} (hy : y.objective.isNaN = false)
    (hlast : ∀ row ∈ last, row.best.objective.isNaN = false) :
    (better last y).objective ≤ y.objective := by
  have hself : y.objective ≤ y.objective := (le_iff_rankKey _ _).mpr ⟨hy, le_rfl⟩
  cases last with
  | none => exact hself
  | some row =>
    rw [better]
    split_ifs with hlt
    · exact hself
    · exact (le_iff_rankKey _ _).mpr ⟨hy, rankKey_le_of_not_lt (hlast row rfl) hlt⟩

/-- **The best objective so far** is no larger than that of its row. -/
theorem Progress.best_le_current {n k : ℕ} {points : List Point} {j₀ j : Journal σ}
    {vs : List Vertex} {s : Search} (h : Progress p n points j₀ k vs s j)
    (hnum : ∀ row ∈ s.trace.rows.toList, row.current.objective.isNaN = false) :
    ∀ row ∈ s.trace.rows.toList, row.best.objective ≤ row.current.objective := by
  induction h with
  | first => exact List.forall_mem_nil _
  | @iterate k vs ws s j j₁ t m before describes chosen evaluated ih =>
    rw [Search.rows_next] at hnum ⊢
    obtain ⟨hold, hlast⟩ := List.forall_mem_append.mp hnum
    have hnew := List.forall_mem_singleton.mp hlast
    refine List.forall_mem_append.mpr ⟨ih hold, List.forall_mem_singleton.mpr ?_⟩
    refine Trace.better_le hnew fun row hrow => ?_
    have hmem : row ∈ s.trace.rows.toList := Array.mem_toList_iff.mpr (Array.mem_of_back? hrow)
    exact ((Binary64.le_iff _ _).mp (ih hold row hmem)).1

/-- The objective of a row that leads is no larger than that of a feasible sample before it. -/
lemma Leads.objective_le {ys : List Sample} {row : Row} (h : Leads p ys row) :
    row.current.objective.isNaN = false ∧
      ∀ y ∈ ys.take row.evaluations, (∀ g ∈ y.constraints, g ≤ 0.0) →
        y.objective.isNaN = false → row.current.objective ≤ y.objective := by
  have hrow := PenaltyFunction.objective_le_augmented h.isNaN_eq
  obtain ⟨hobjective, -, -⟩ := (Binary64.le_iff _ _).mp hrow
  refine ⟨hobjective, fun y hy hfeasible hnum => ?_⟩
  obtain ⟨haugmented, hticks⟩ := p.augmented_of_feasible hnum hfeasible
  have hkey : rankKey (p.augmentedOf y) = rankKey y.objective := by
    rw [PenaltyFunction.augmentedOf, rankKey_of_number haugmented, rankKey_of_number hnum, hticks]
  refine le_trans_float hrow ((le_iff_rankKey _ _).mpr ⟨hnum, ?_⟩)
  rw [← hkey]
  exact h.rankKey_le y hy

/-- **Feasible samples never beat the report.**  If all augmented values of the first simplex are
numbers, the best objective so far of each row is no larger than the objective of any feasible
sample before it. -/
theorem Problem.Completes.feasible {q : Problem σ} {maxIter : ℕ} {o : Options} {w : σ}
    {points : List Point} {r : SearchResult} {j : Journal σ}
    (h : q.Completes maxIter o w points r j) (hp : q.penalized o = .ok p)
    (hfirst : ∀ y ∈ j.samples.take (q.dimension + 1), (p.augmentedOf y).isNaN = false)
    {i : ℕ} (hi : i < maxIter) :
    ∃ best evaluations, r.bestF[i]? = some best ∧
      r.samplesAtIteration[i]? = some evaluations ∧
      ∀ y ∈ j.samples.take evaluations, (∀ g ∈ y.constraints, g ≤ 0.0) →
        y.objective.isNaN = false → best ≤ y.objective := by
  obtain ⟨hlength, -, vs, s, j₀, j₁, hprogress, -, hsamples, hshows⟩ := h.progress hp
  obtain ⟨row, hrow⟩ := hprogress.exists_row hi
  rw [hsamples, ← hlength] at hfirst
  have hleads := hprogress.leads (hprogress.isNaN_first hfirst)
  have hbest := hprogress.best_le_current fun row hrow => (hleads row hrow).objective_le.1
  have hmem := List.mem_of_getElem? hrow
  refine ⟨row.best.objective, row.evaluations, ?_, ?_, fun y hy hfeasible hnum => ?_⟩
  · rw [hshows.bestF, List.getElem?_map, hrow, Option.map_some]
  · rw [hshows.samplesAtIteration, List.getElem?_map, hrow, Option.map_some]
  · rw [hsamples] at hy
    exact le_trans_float (hbest row hmem) ((hleads row hmem).objective_le.2 y hy hfeasible hnum)

theorem feasible_square : ∃ r j, square.Completes 2 {} () segment.rows r j ∧
    ∃ best evaluations, r.bestF[1]? = some best ∧ r.samplesAtIteration[1]? = some evaluations ∧
      ∃ y ∈ j.samples.take evaluations, (∀ g ∈ y.constraints, g ≤ 0.0) ∧
        y.objective.isNaN = false ∧ best ≤ y.objective := by
  obtain ⟨r, j, hrun, hfirst, y, hy, hfeasible, hnum⟩ := completes_square
    (P := fun r j => (∀ y ∈ j.samples.take 2, (squarePenalty.augmentedOf y).isNaN = false) ∧
      ∃ y ∈ j.samples.take (r.samplesAtIteration.getD 1 0),
        (∀ g ∈ y.constraints, g ≤ 0.0) ∧ y.objective.isNaN = false)
    (by decide +kernel)
  obtain ⟨best, evaluations, hbest, hevaluations, hle⟩ :=
    hrun.feasible penalized_square hfirst (i := 1) (by decide)
  rw [List.getD_eq_getElem?_getD, hevaluations, Option.getD_some] at hy
  exact ⟨r, j, hrun, best, evaluations, hbest, hevaluations, y, hy, hfeasible, hnum,
    hle y hy hfeasible hnum⟩

end NelderMead
