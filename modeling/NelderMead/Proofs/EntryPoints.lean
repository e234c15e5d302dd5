import NelderMead.Proofs.Requests
import NelderMead.Proofs.Run

/-!
# Runs of a problem

A problem is run from a given simplex or from a sampled one.  Either way the checks that come before
the search make sure of its shape, so whatever is shown of a search with the right shape holds of
every run of a problem.

* `Problem.Completes` — a run of a problem, from either kind of simplex, that succeeds.
* `Problem.Completes.exists_start`, `Problem.Completes.search` — such a run was an accepted request,
  and so a search of the right shape.
* **`Problem.Completes.progress`** — such a run is the progress of a search of the right shape, and
  its journal and its result are those of the search.
* `Problem.Visits` — that a run of a problem, which may fail later, is in a state before an iteration.
* `Solver.exec_solve` — what a solver tells is read off the result of the same run.
* `square`, `completes_square` — a problem with such a run.
-/

namespace NelderMead

open NelderMead.Random

variable {σ : Type}

/-! ## Runs that succeed -/

namespace Problem

variable {q : Problem σ} {maxIter : ℕ} {o : Options} {w : σ} {points : List Point}
  {r : SearchResult} {j : Journal σ} {f : PenaltyFunction σ}

/-- **A run of the problem `q` that succeeds**, with the points of its first simplex, its result and
its journal. -/
inductive Completes (q : Problem σ) (maxIter : ℕ) (o : Options) (w : σ) :
    List Point → SearchResult → Journal σ → Prop
  | given {simplex : Matrix} {r : SearchResult} {j : Journal σ}
      (run : (q.minimizeFrom simplex maxIter o).execIn w = (.ok r, j)) :
      Completes q maxIter o w simplex.rows r j
  | sampled {γ : Type} [WordSource γ] {g : γ} {r : SearchResult} {j : Journal σ}
      (run : (q.minimizeWith maxIter o g).1.execIn w = (.ok r, j)) :
      Completes q maxIter o w
        (sampledPoints q.x0 (q.bounds.spread o.spreadFraction) (q.dimension + 1) g).1 r j

lemma constraintCount_of_penalized (h : q.penalized o = .ok f) :
    f.constraintCount = q.constraintCount := by
  obtain ⟨_, -, h⟩ := bind_eq_ok_iff.mp h
  rw [penaltyFunction, PenaltyFunction.of] at h
  split_ifs at h
  obtain rfl := Except.ok.inj h
  rfl

lemma Completes.exists_start (h : q.Completes maxIter o w points r j) :
    ∃ start : Start, start.points q o = points ∧
      (q.run o maxIter start).execIn w = (.ok r, j) := by
  cases h with
  | given run => exact ⟨.given _, rfl, run⟩
  | sampled run => exact ⟨.sampled _, rfl, run⟩

lemma Completes.exists_penalized (h : q.Completes maxIter o w points r j) :
    ∃ f, q.penalized o = .ok f := by
  obtain ⟨start, -, hrun⟩ := h.exists_start
  exact ⟨_, (accepts_of_run hrun).penalized_eq⟩

/-- A run that succeeds is a search of the right shape. -/
lemma Completes.search (h : q.Completes maxIter o w points r j) (hf : q.penalized o = .ok f) :
    points.length = q.dimension + 1 ∧ (∀ x ∈ points, x.length = q.dimension) ∧
      ∃ j₀ : Journal σ, j₀.calls = #[] ∧
        (search f q.dimension points maxIter).exec j₀ = (.ok r, j) := by
  obtain ⟨start, rfl, hrun⟩ := h.exists_start
  have haccepts := accepts_of_run hrun
  obtain rfl := Except.ok.inj (hf.symm.trans haccepts.penalized_eq)
  obtain ⟨j₀, -, hempty, hexec⟩ := haccepts.exec_run maxIter w
  exact ⟨haccepts.length_points, haccepts.length_of_mem_points, j₀, hempty, hexec.symm.trans hrun⟩

/-- **A run that succeeds is the progress of a search.**  Its journal shows the evaluated vertices
`vs`, and its result the trace of the last state. -/
theorem Completes.progress (h : q.Completes maxIter o w points r j)
    (hf : q.penalized o = .ok f) :
    points.length = q.dimension + 1 ∧ (∀ x ∈ points, x.length = q.dimension) ∧
      ∃ vs s, ∃ j₀ j₁ : Journal σ, Progress f q.dimension points j₀ maxIter vs s j₁ ∧
        j.calls.toList = (vs.map Vertex.sample).flatMap Sample.calls ∧
        j.samples = vs.map Vertex.sample ∧ r.Shows s.evaluations s.trace.rows.toList := by
  obtain ⟨hlength, hdim, j₀, hempty, hsearch⟩ := h.search hf
  obtain ⟨s, j₁, hvisits, hcalls, hshows⟩ := visits_of_search hsearch
  obtain ⟨vs, hprogress⟩ := Progress.of_visits q.dimension_pos hlength hvisits
  have hlog : j.calls.toList = (vs.map Vertex.sample).flatMap Sample.calls := by
    rw [hcalls, hprogress.calls, hempty]
    exact List.nil_append _
  refine ⟨hlength, hdim, vs, s, j₀, j₁, hprogress, hlog, ?_, hshows⟩
  rw [Journal.samples, hlog, samplesOf_flatMap]

/-! ## States of a run -/

/-- **The state before iteration `k`** of an accepted request, and the journal there. -/
def Visits (q : Problem σ) (o : Options) (maxIter : ℕ) (start : Start) (w : σ) (k : ℕ) (s : Search)
    (j : Journal σ) : Prop :=
  ∃ h : q.Accepts o start, Search.Visits h.penalty q.dimension (start.points q o) maxIter
    (start.journal q maxIter h.penalty w) k s j

end Problem

/-- **A solver's output** is read off the result that the same run returns. -/
lemma Solver.exec_solve (s : Solver) (q : Problem σ) (budget : ℕ) (w : σ) :
    (s.solve q budget).1.execIn w =
      (((s.minimize q budget).1.execIn w).1.map SearchResult.output,
        ((s.minimize q budget).1.execIn w).2) := by
  have hsolve : (s.solve q budget).1 = (s.minimize q budget).1 >>= fun r => pure r.output := rfl
  rw [hsolve, Run.execIn, Run.exec_bind, Run.execIn]
  rcases (s.minimize q budget).1.exec { world := w } with ⟨e | r, j⟩
  · rfl
  · rfl

/-! ## A run on a line -/

/-- The square of a number that has to be at least one. -/
def square : Problem Unit where
  objective := .ofPoint fun x => .ok (x.foldl (fun s c => s + c * c) 0.0)
  x0 := [1.0]
  bounds := ⟨[0.0], [4.0], rfl, List.cons_ne_nil _ _, by decide +kernel⟩
  constraints := [.linear ⟨[-1.0], 1.0⟩]
  x0_ne_nil := List.cons_ne_nil _ _
  length_bounds := rfl
  agrees_objective := by decide
  agrees_constraint := by decide

/-- The square with the penalty of the default options. -/
def squarePenalty : PenaltyFunction Unit :=
  ⟨square.objective, square.constraints, .l2, 100.0, by decide +kernel⟩

/-- A segment to begin with. -/
def segment : Matrix := ⟨1, [[3.0], [2.0]], by decide⟩

lemma penalized_square : square.penalized {} = .ok squarePenalty :=
  Problem.penalized_eq_ok (by decide +kernel) (by decide +kernel)

/-- Two iterations on the square succeed, and what is checked of their result holds. -/
lemma completes_square {P : SearchResult → Journal Unit → Prop} [∀ r j, Decidable (P r j)]
    (h : (match (square.minimizeFrom segment 2 {}).execIn () with
      | (.ok r, j) => decide (P r j)
      | (.error _, _) => false) = true) :
    ∃ r j, square.Completes 2 {} () segment.rows r j ∧ P r j := by
  rcases hrun : (square.minimizeFrom segment 2 {}).execIn () with ⟨e | r, j⟩
  · rw [hrun] at h
    cases h
  · rw [hrun] at h
    exact ⟨r, j, .given hrun, of_decide_eq_true h⟩

end NelderMead
