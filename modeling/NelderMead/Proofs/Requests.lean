import NelderMead.Solver
import NelderMead.Proofs.Course
import Mathlib.Tactic.ByContra
import Mathlib.Tactic.SplitIfs

/-!
# Requests

A request is refused before anything is evaluated, or it is a search of the right shape.  Which of
the two it is depends neither on the number of iterations nor on the world.

* `length_sampledPoints`, `length_of_mem_sampledPoints` — the shape of a sampled simplex.
* `Start`, `Problem.run` — the two kinds of first simplex, and a run from either.
* `Problem.Accepts` — what the checks before a search ask for.
* `Start.journal`, **`Problem.Accepts.exec_run_eq`** — an accepted request is a search.
* `Options.objection?`, `Problem.objection?` — what is wrong with a request;
  **`Problem.refuses_of_objection`** says that it fails for that, without an evaluation.
-/

namespace NelderMead

open NelderMead.Random

variable {σ : Type}

/-! ## Sampled simplexes -/

section Sampled

variable {γ : Type} [WordSource γ] {x0 spread : Point}

lemma length_sampledPoints (k : ℕ) (g : γ) : (sampledPoints x0 spread k g).1.length = k := by
  induction k generalizing g with
  | zero => rfl
  | succ k ih => exact congrArg (· + 1) (ih _)

lemma length_of_mem_sampledPoints (hspread : spread.length = x0.length) (k : ℕ) (g : γ) :
    ∀ x ∈ (sampledPoints x0 spread k g).1, x.length = x0.length := by
  induction k generalizing g with
  | zero => exact List.forall_mem_nil _
  | succ k ih =>
    refine List.forall_mem_cons.mpr ⟨?_, ih _⟩
    rw [displaced, List.length_zipWith, List.length_zip, length_standardNormals, hspread,
      Nat.min_self, Nat.min_self]

end Sampled

/-! ## What is asked for -/

/-- **The first simplex of a run**: given by the caller or sampled with a generator. -/
inductive Start : Type 1
  | given (simplex : Matrix)
  | sampled {γ : Type} [WordSource γ] (g : γ)

namespace Start

variable (q : Problem σ) (o : Options)

/-- The points of the first simplex. -/
def points : Start → List Point
  | given simplex => simplex.rows
  | sampled g => (sampledPoints q.x0 (q.bounds.spread o.spreadFraction) (q.dimension + 1) g).1

/-- A given simplex has to have the right shape, and all deviations of a sampled one have to be
finite and not negative. -/
def Fits : Start → Prop
  | given simplex => simplex.rowCount = q.dimension + 1 ∧ simplex.cols = q.dimension
  | sampled _ => ∀ s ∈ q.bounds.spread o.spreadFraction, isFiniteNonneg s = true

/-- The journal that the search of a run begins with, in the world `w`.  A run from a sampled simplex
has told that it begins. -/
def journal (maxIter : ℕ) (f : PenaltyFunction σ) (w : σ) : Start → Journal σ
  | given _ => { world := w }
  | sampled _ => { world := w, events := #[q.started maxIter f] }

variable {q}

@[simp] lemma world_journal (start : Start) (maxIter : ℕ) (f : PenaltyFunction σ) (w : σ) :
    (start.journal q maxIter f w).world = w := by
  cases start <;> rfl

@[simp] lemma calls_journal (start : Start) (maxIter : ℕ) (f : PenaltyFunction σ) (w : σ) :
    (start.journal q maxIter f w).calls = #[] := by
  cases start <;> rfl

end Start

namespace Problem

/-- **A run of `maxIter` iterations** from either kind of simplex. -/
def run (q : Problem σ) (o : Options) (maxIter : ℕ) : Start → Run σ SolverError SearchResult
  | Start.given simplex => q.minimizeFrom simplex maxIter o
  | Start.sampled g => (q.minimizeWith maxIter o g).1

/-- **The request is accepted.** -/
structure Accepts (q : Problem σ) (o : Options) (start : Start) : Prop where
  spreadFraction : isFiniteNonneg o.spreadFraction = true
  mu : isFiniteNonneg o.mu = true
  start : start.Fits q o

variable {q : Problem σ} {o : Options} {start : Start} {maxIter : ℕ} {w : σ}

lemma penalized_eq_ok (hspread : isFiniteNonneg o.spreadFraction = true)
    (hmu : isFiniteNonneg o.mu = true) :
    q.penalized o = .ok ⟨q.objective, q.constraints, o.shape, o.mu, hmu⟩ := by
  rw [penalized, Options.check, if_pos hspread]
  exact dif_pos hmu

lemma firstBadSpread?_eq_none_iff {spread : Point} :
    firstBadSpread? spread = none ↔ ∀ s ∈ spread, isFiniteNonneg s = true := by
  simp [firstBadSpread?]

/-! ## Accepted requests -/

namespace Accepts

/-- The function that an accepted request searches with. -/
def penalty (h : q.Accepts o start) : PenaltyFunction σ :=
  ⟨q.objective, q.constraints, o.shape, o.mu, h.mu⟩

lemma penalized_eq (h : q.Accepts o start) : q.penalized o = .ok h.penalty :=
  penalized_eq_ok h.spreadFraction h.mu

lemma length_points (h : q.Accepts o start) : (start.points q o).length = q.dimension + 1 := by
  cases start with
  | given simplex => exact h.start.1
  | sampled g => exact length_sampledPoints _ g

lemma length_of_mem_points (h : q.Accepts o start) :
    ∀ x ∈ start.points q o, x.length = q.dimension := by
  cases start with
  | given simplex =>
    intro x hx
    exact (simplex.length_row x hx).trans h.start.2
  | sampled g =>
    have hspread : (q.bounds.spread o.spreadFraction).length = q.x0.length := by
      rw [Bounds.length_spread, q.length_bounds]
    exact length_of_mem_sampledPoints hspread _ g

/-- An accepted request is a run of the right shape. -/
lemma exec_run_eq_course (h : q.Accepts o start) (maxIter : ℕ) (w : σ) :
    (q.run o maxIter start).execIn w =
      (Course.run h.penalty q.dimension (start.points q o) maxIter).exec
        (start.journal q maxIter h.penalty w) := by
  have hpenalized := h.penalized_eq
  cases start with
  | given simplex =>
    rw [run, Run.execIn, minimizeFrom, hpenalized]
    exact congrArg (Run.exec · _) (if_pos h.start)
  | sampled g =>
    have hgood := firstBadSpread?_eq_none_iff.mpr h.start
    rw [run, Run.execIn, minimizeWith, hpenalized]
    simp only [hgood]
    rw [Run.exec_bind, Run.exec_tell]
    rfl

/-- **An accepted request is a search.** -/
theorem exec_run_eq (h : q.Accepts o start) (maxIter : ℕ) (w : σ) :
    (q.run o maxIter start).execIn w =
      (search h.penalty q.dimension (start.points q o) maxIter).exec
        (start.journal q maxIter h.penalty w) := by
  rw [h.exec_run_eq_course]
  exact Course.exec_eq_search q.dimension_pos h.length_points h.length_of_mem_points maxIter _

/-- Its first evaluation finds the world as it was given. -/
theorem exec_run (h : q.Accepts o start) (maxIter : ℕ) (w : σ) :
    ∃ j₀ : Journal σ, j₀.world = w ∧ j₀.calls = #[] ∧
      (q.run o maxIter start).execIn w =
        (search h.penalty q.dimension (start.points q o) maxIter).exec j₀ :=
  ⟨_, start.world_journal .., start.calls_journal .., h.exec_run_eq maxIter w⟩

end Accepts

/-! ## Other requests -/

end Problem

/-- **The computation fails** for the cause `e` without an evaluation. -/
def Run.Refuses {ε α : Type} (r : Run σ ε α) (e : ε) : Prop :=
  ∀ w : σ, ∃ j : Journal σ, r.execIn w = (.error (.error e), j) ∧ j.world = w ∧ j.calls = #[]

lemma Run.refuses_fail {ε α : Type} (e : ε) : (Run.fail e : Run σ ε α).Refuses e := by
  intro w
  exact ⟨{ world := w }, rfl, rfl, rfl⟩

namespace Options

variable {o : Options}

/-- What is wrong with the options, if anything is. -/
def objection? (o : Options) : Option SolverError :=
  if isFiniteNonneg o.spreadFraction = true then
    if isFiniteNonneg o.mu = true then none
    else some (.invalidParameters (.penaltyCoefficient o.mu))
  else some (.invalidParameters (.spreadFraction o.spreadFraction))

lemma objection?_eq_none_iff : o.objection? = none ↔
    isFiniteNonneg o.spreadFraction = true ∧ isFiniteNonneg o.mu = true := by
  rw [objection?]
  split_ifs with hfraction hmu
  · exact iff_of_true rfl ⟨hfraction, hmu⟩
  · exact iff_of_false (nomatch ·) fun h => hmu h.2
  · exact iff_of_false (nomatch ·) fun h => hfraction h.1

lemma evalError?_of_objection {e : SolverError} (h : o.objection? = some e) :
    e.evalError? = none := by
  rw [objection?] at h
  split_ifs at h <;> (obtain rfl := Option.some.inj h; rfl)

end Options

namespace Problem

variable {q : Problem σ} {o : Options} {start : Start} {maxIter : ℕ} {w : σ}

/-- **What is wrong with a request**, if anything is.  The shape of a given simplex is looked at
before the options, and the deviations of a sampled one after them. -/
def objection? (q : Problem σ) (o : Options) : Start → Option SolverError
  | Start.given simplex =>
    if simplex.rowCount = q.dimension + 1 ∧ simplex.cols = q.dimension then o.objection?
    else some (.invalidInitialSimplex (q.dimension + 1) q.dimension simplex.rowCount simplex.cols)
  | Start.sampled _ => (o.objection?).or
      ((firstBadSpread? (q.bounds.spread o.spreadFraction)).map fun s =>
        .invalidParameters (.spread s))

/-- **The requests without an objection** are those that are accepted. -/
theorem objection?_eq_none_iff : q.objection? o start = none ↔ q.Accepts o start := by
  cases start with
  | given simplex =>
    rw [objection?]
    split_ifs with hshape
    · rw [Options.objection?_eq_none_iff]
      exact ⟨fun h => ⟨h.1, h.2, hshape⟩, fun h => ⟨h.spreadFraction, h.mu⟩⟩
    · exact iff_of_false (nomatch ·) fun h => hshape h.start
  | sampled g =>
    rw [objection?, Option.or_eq_none_iff, Option.map_eq_none_iff, firstBadSpread?_eq_none_iff,
      Options.objection?_eq_none_iff]
    exact ⟨fun h => ⟨h.1.1, h.1.2, h.2⟩, fun h => ⟨⟨h.spreadFraction, h.mu⟩, h.start⟩⟩

lemma penalized_of_objection {e : SolverError} (h : o.objection? = some e)
    (q : Problem σ) : q.penalized o = .error e := by
  rw [Options.objection?] at h
  rw [penalized, Options.check]
  split_ifs at h ⊢ with hfraction hmu
  · obtain rfl := Option.some.inj h
    exact dif_neg hmu
  · obtain rfl := Option.some.inj h
    rfl

/-- **A request to which there is an objection fails** for it, without an evaluation. -/
theorem refuses_of_objection {e : SolverError} (h : q.objection? o start = some e) :
    e.evalError? = none ∧ ∀ maxIter, (q.run o maxIter start).Refuses e := by
  cases start with
  | given simplex =>
    rw [objection?] at h
    split_ifs at h with hshape
    · refine ⟨Options.evalError?_of_objection h, fun maxIter => ?_⟩
      rw [run, minimizeFrom, penalized_of_objection h]
      show Run.Refuses (ite _ _ _) e
      rw [if_pos hshape]
      exact Run.refuses_fail e
    · obtain rfl := Option.some.inj h
      refine ⟨rfl, fun maxIter => ?_⟩
      rw [run, minimizeFrom]
      show Run.Refuses (ite _ _ _) _
      rw [if_neg hshape]
      exact Run.refuses_fail _
  | sampled g =>
    rcases hoptions : o.objection? with _ | e'
    · obtain ⟨hfraction, hmu⟩ := Options.objection?_eq_none_iff.mp hoptions
      rw [objection?, hoptions, Option.none_or, Option.map_eq_some_iff] at h
      obtain ⟨s, hs, rfl⟩ := h
      refine ⟨rfl, fun maxIter w => ?_⟩
      rw [run, minimizeWith, penalized_eq_ok hfraction hmu]
      simp only [hs]
      exact ⟨_, rfl, rfl, rfl⟩
    · rw [objection?, hoptions, Option.some_or] at h
      obtain rfl := Option.some.inj h
      refine ⟨Options.evalError?_of_objection hoptions, fun maxIter => ?_⟩
      rw [run, minimizeWith, penalized_of_objection hoptions]
      exact Run.refuses_fail _

/-- A request that is not accepted fails without an evaluation, and its cause does not depend on the
number of iterations. -/
theorem refuses_of_not_accepts (h : ¬q.Accepts o start) :
    ∃ e, e.evalError? = none ∧ ∀ maxIter, (q.run o maxIter start).Refuses e := by
  obtain ⟨e, he⟩ := Option.ne_none_iff_exists'.mp fun hnone => h (objection?_eq_none_iff.mp hnone)
  exact ⟨e, refuses_of_objection he⟩

/-- A run that succeeds was an accepted request. -/
lemma accepts_of_run {r : SearchResult} {j : Journal σ}
    (h : (q.run o maxIter start).execIn w = (.ok r, j)) : q.Accepts o start := by
  by_contra hrefused
  obtain ⟨e, -, hrefuses⟩ := refuses_of_not_accepts hrefused
  obtain ⟨j', hfail, -⟩ := hrefuses maxIter w
  cases h.symm.trans hfail

end Problem

end NelderMead
