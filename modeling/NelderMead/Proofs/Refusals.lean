import NelderMead.Proofs.Construction
import NelderMead.Proofs.Sessions

/-!
# Refused requests

A request is refused for the shape of the simplex that it brings, for its options, or for the
deviations of the simplex that it would sample.  The first of these faults is the error of the run,
and no run fails otherwise unless a function that it evaluates does.  A request that is refused
leaves no trace.

* `Unfit` — numbers that can neither size nor weigh.
* `OptionsFault`, `SamplingFault`, `SimplexFault` — what is wrong with a request, in the order in
  which it is looked for; `Problem.objection?_sampled_iff` and `Problem.objection?_given_iff` say
  that these are the objections to it.
* `Run.RefusedFor`, **`Problem.refusedFor`** — a run is refused for the objection to it.
* `Problem.Refusals`, **`Problem.refusals`** — what is refused, why, and that it leaves no trace.
-/

namespace NelderMead

open NelderMead.Random

variable {σ : Type}

/-! ## Faults -/

/-- Not finite, or negative. -/
def Unfit (x : Float) : Prop := x.isFinite = false ∨ x < 0.0

lemma not_unfit_iff {x : Float} : ¬Unfit x ↔ isFiniteNonneg x = true := by
  rw [Unfit, not_or, Bool.not_eq_false, isFiniteNonneg, Bool.and_eq_true, Bool.not_eq_true',
    decide_eq_false_iff_not]

/-- How far the first simplex spreads between a lower and an upper limit. -/
def deviation (fraction : Float) (limits : Float × Float) : Float :=
  (limits.2 - limits.1) * fraction

/-- **What is wrong with some options.** -/
inductive OptionsFault (o : Options) : SolverError → Prop
  | spreadFraction (unfit : Unfit o.spreadFraction) :
      OptionsFault o (.invalidParameters (.spreadFraction o.spreadFraction))
  | mu (fraction : ¬Unfit o.spreadFraction) (unfit : Unfit o.mu) :
      OptionsFault o (.invalidParameters (.penaltyCoefficient o.mu))

/-- **What is wrong with sampling a simplex.**  Coordinate `i` is the first whose deviation is not
finite, and the error shows this deviation. -/
inductive SamplingFault (b : Bounds) (o : Options) : SolverError → Prop
  | options {e : SolverError} (fault : OptionsFault o e) : SamplingFault b o e
  | deviation (fraction : ¬Unfit o.spreadFraction) (mu : ¬Unfit o.mu) {i : ℕ}
      {limits : Float × Float}
      (first : FirstAt (fun p => (deviation o.spreadFraction p).isFinite = false)
        (b.lower.zip b.upper) i limits) :
      SamplingFault b o (.invalidParameters (.spread (deviation o.spreadFraction limits)))

/-- **What is wrong with a given simplex** in dimension `n`, or with the options. -/
inductive SimplexFault (n : ℕ) (o : Options) (simplex : Matrix) : SolverError → Prop
  | shape (misfit : ¬(simplex.rowCount = n + 1 ∧ simplex.cols = n)) :
      SimplexFault n o simplex (.invalidInitialSimplex (n + 1) n simplex.rowCount simplex.cols)
  | options (rowCount : simplex.rowCount = n + 1) (cols : simplex.cols = n) {e : SolverError}
      (fault : OptionsFault o e) : SimplexFault n o simplex e

section Faults

variable {o : Options} {b : Bounds} {n : ℕ} {simplex : Matrix} {e : SolverError}

lemma exists_optionsFault_iff : (∃ e, OptionsFault o e) ↔ Unfit o.spreadFraction ∨ Unfit o.mu := by
  constructor
  · rintro ⟨_, hfraction | ⟨-, hmu⟩⟩
    · exact Or.inl hfraction
    · exact Or.inr hmu
  · intro hunfit
    by_cases hfraction : Unfit o.spreadFraction
    · exact ⟨_, .spreadFraction hfraction⟩
    · exact ⟨_, .mu hfraction (hunfit.resolve_left hfraction)⟩

lemma exists_samplingFault_iff : (∃ e, SamplingFault b o e) ↔
    Unfit o.spreadFraction ∨ Unfit o.mu ∨
      ∃ p ∈ b.lower.zip b.upper, (deviation o.spreadFraction p).isFinite = false := by
  rw [← or_assoc, ← exists_optionsFault_iff, ← exists_firstAt_iff]
  constructor
  · rintro ⟨e, hoptions | ⟨-, -, hfirst⟩⟩
    · exact Or.inl ⟨e, hoptions⟩
    · exact Or.inr ⟨_, _, hfirst⟩
  · rintro (⟨e, hoptions⟩ | ⟨i, p, hfirst⟩)
    · exact ⟨e, .options hoptions⟩
    · by_cases hoptions : ∃ e, OptionsFault o e
      · obtain ⟨e, hoptions⟩ := hoptions
        exact ⟨e, .options hoptions⟩
      · rw [exists_optionsFault_iff, not_or] at hoptions
        exact ⟨_, .deviation hoptions.1 hoptions.2 hfirst⟩

/-- A width that overflows leaves no finite deviation, not even of the fraction zero. -/
example : (deviation 0.0 (-1.7e308, 1.7e308)).isFinite = false := by decide +kernel

lemma exists_simplexFault_iff : (∃ e, SimplexFault n o simplex e) ↔
    ¬(simplex.rowCount = n + 1 ∧ simplex.cols = n) ∨ Unfit o.spreadFraction ∨ Unfit o.mu := by
  rw [← exists_optionsFault_iff]
  constructor
  · rintro ⟨e, hmisfit | ⟨-, -, hoptions⟩⟩
    · exact Or.inl hmisfit
    · exact Or.inr ⟨e, hoptions⟩
  · intro hfault
    by_cases hshape : simplex.rowCount = n + 1 ∧ simplex.cols = n
    · obtain ⟨e, hoptions⟩ := hfault.resolve_left (not_not_intro hshape)
      exact ⟨e, .options hshape.1 hshape.2 hoptions⟩
    · exact ⟨_, .shape hshape⟩

/-! ## Objections -/

lemma Options.objection?_eq_some_iff : o.objection? = some e ↔ OptionsFault o e := by
  constructor
  · intro h
    rw [objection?] at h
    split_ifs at h with hfraction hmu
    · obtain rfl := Option.some.inj h
      exact .mu (not_unfit_iff.mpr hfraction) (not_imp_comm.mp not_unfit_iff.mp hmu)
    · obtain rfl := Option.some.inj h
      exact .spreadFraction (not_imp_comm.mp not_unfit_iff.mp hfraction)
  · rintro (hfraction | ⟨hfraction, hmu⟩)
    · rw [objection?, if_neg fun h => not_unfit_iff.mpr h hfraction]
    · rw [objection?, if_pos (not_unfit_iff.mp hfraction),
        if_neg fun h => not_unfit_iff.mpr h hmu]

/-- The deviations, coordinate by coordinate. -/
lemma Bounds.spread_eq (b : Bounds) (fraction : Float) :
    b.spread fraction = (b.lower.zip b.upper).map (deviation fraction) := by
  rw [spread, width, List.zipWith_comm, ← List.map_uncurry_zip_eq_zipWith, List.map_map]
  rfl

/-- **The deviation that is reported** is the first that is not finite. -/
lemma firstBadSpread?_eq_some_iff {fraction s : Float} (hfraction : isFiniteNonneg fraction = true) :
    firstBadSpread? (b.spread fraction) = some s ↔
      ∃ i p, FirstAt (fun p => (deviation fraction p).isFinite = false) (b.lower.zip b.upper) i p ∧
        deviation fraction p = s := by
  have hbad : ∀ c ∈ b.spread fraction, (!isFiniteNonneg c) = true ↔ c.isFinite = false := by
    intro c hc
    rw [Bool.not_eq_true', ← Bool.not_eq_true, Bounds.isFiniteNonneg_spread hfraction hc,
      Bool.not_eq_true]
  rw [firstBadSpread?, find?_eq_some_iff_firstAt]
  refine exists_congr fun i => ?_
  have hmap : FirstAt (fun c : Float => c.isFinite = false) (b.spread fraction) i s ↔
      ∃ p, FirstAt (fun p => (deviation fraction p).isFinite = false) (b.lower.zip b.upper) i p ∧
        deviation fraction p = s := by
    rw [Bounds.spread_eq]
    exact firstAt_map_iff
  rw [← hmap]
  exact ⟨fun h => h.congr hbad, fun h => h.congr fun c hc => (hbad c hc).symm⟩

namespace Problem

variable {q : Problem σ}

/-- The objections to sampling a simplex. -/
theorem objection?_sampled_iff {γ : Type} [WordSource γ] {g : γ} :
    q.objection? o (.sampled g) = some e ↔ SamplingFault q.bounds o e := by
  have hfit : o.objection? = none ↔ ¬Unfit o.spreadFraction ∧ ¬Unfit o.mu := by
    rw [Options.objection?_eq_none_iff, not_unfit_iff, not_unfit_iff]
  rw [objection?, Option.or_eq_some_iff, Options.objection?_eq_some_iff, hfit,
    Option.map_eq_some_iff]
  constructor
  · rintro (hoptions | ⟨⟨hfraction, hmu⟩, s, hs, rfl⟩)
    · exact .options hoptions
    · obtain ⟨i, p, hfirst, rfl⟩ := (firstBadSpread?_eq_some_iff (not_unfit_iff.mp hfraction)).mp hs
      exact .deviation hfraction hmu hfirst
  · rintro (hoptions | ⟨hfraction, hmu, hfirst⟩)
    · exact Or.inl hoptions
    · exact Or.inr ⟨⟨hfraction, hmu⟩, _,
        (firstBadSpread?_eq_some_iff (not_unfit_iff.mp hfraction)).mpr ⟨_, _, hfirst, rfl⟩, rfl⟩

/-- The objections to a given simplex. -/
theorem objection?_given_iff :
    q.objection? o (.given simplex) = some e ↔ SimplexFault q.dimension o simplex e := by
  rw [objection?]
  split_ifs with hshape
  · rw [Options.objection?_eq_some_iff]
    constructor
    · exact .options hshape.1 hshape.2
    · rintro (hmisfit | ⟨-, -, hoptions⟩)
      · exact absurd hshape hmisfit
      · exact hoptions
  · constructor
    · rintro ⟨⟩
      exact .shape hshape
    · rintro (- | ⟨hrows, hcols, -⟩)
      · rfl
      · exact absurd ⟨hrows, hcols⟩ hshape

end Problem

end Faults

/-! ## Refusals -/

/-- **The run is refused for a fault** and for nothing else: an error that is not the failure of a
function is a fault, and no fault has let the run do anything. -/
structure Run.RefusedFor {α : Type} (r : Run σ SolverError α) (w : σ)
    (fault : SolverError → Prop) : Prop where
  error_iff : ∀ e, e.evalError? = none → ((r.execIn w).1 = .error (.error e) ↔ fault e)
  evalError?_eq_none : ∀ e, fault e → e.evalError? = none
  calls : ∀ e, fault e → (r.execIn w).2.calls = #[]
  world : ∀ e, fault e → (r.execIn w).2.world = w

namespace Problem

variable {q : Problem σ} {o : Options} {start : Start}

/-- An accepted request fails for no other error than the failure of a function. -/
lemma Accepts.evalError?_ne_none (h : q.Accepts o start) {maxIter : ℕ} {w : σ} {e : SolverError}
    (herror : ((q.run o maxIter start).execIn w).1 = .error (.error e)) : e.evalError? ≠ none := by
  obtain ⟨j₀, -, -, hends⟩ := h.ends maxIter w
  generalize (q.run o maxIter start).execIn w = out at herror hends
  cases hends with
  | returned value whole grows => cases herror
  | interrupted whole interrupted grows =>
    cases herror
    cases interrupted with
    | objective x dimension source => exact Option.some_ne_none source
    | constraint y dimension before source => exact Option.some_ne_none source
  | noRoom full whole grows => cases herror

/-- **A run is refused for the objection to it.** -/
theorem refusedFor (q : Problem σ) (o : Options) (maxIter : ℕ) (start : Start) (w : σ) :
    (q.run o maxIter start).RefusedFor w fun e => q.objection? o start = some e where
  error_iff e he := by
    constructor
    · intro herror
      rcases hobjection : q.objection? o start with _ | e'
      · exact absurd he ((objection?_eq_none_iff.mp hobjection).evalError?_ne_none herror)
      · obtain ⟨j, hexec, -⟩ := (refuses_of_objection hobjection).2 maxIter w
        rw [hexec] at herror
        cases herror
        rfl
    · intro hobjection
      obtain ⟨j, hexec, -⟩ := (refuses_of_objection hobjection).2 maxIter w
      rw [hexec]
  evalError?_eq_none e h := (refuses_of_objection h).1
  calls e h := by
    obtain ⟨j, hexec, -, hcalls⟩ := (refuses_of_objection h).2 maxIter w
    rw [hexec, hcalls]
  world e h := by
    obtain ⟨j, hexec, hworld, -⟩ := (refuses_of_objection h).2 maxIter w
    rw [hexec, hworld]

/-- **What is refused of a problem**, for `maxIter` iterations in the world `w`. -/
structure Refusals (q : Problem σ) (maxIter : ℕ) (w : σ) : Prop where
  /-- A simplex can be sampled unless one of these numbers is in the way. -/
  samplingFault_iff : ∀ o : Options, (∃ e, SamplingFault q.bounds o e) ↔
    Unfit o.spreadFraction ∨ Unfit o.mu ∨
      ∃ p ∈ q.bounds.lower.zip q.bounds.upper, (deviation o.spreadFraction p).isFinite = false
  /-- The bounds are in nobody's way who brings a simplex. -/
  simplexFault_iff : ∀ (o : Options) (simplex : Matrix),
    (∃ e, SimplexFault q.dimension o simplex e) ↔
      ¬(simplex.rowCount = q.dimension + 1 ∧ simplex.cols = q.dimension) ∨
        Unfit o.spreadFraction ∨ Unfit o.mu
  minimizeWith : ∀ {γ : Type} [WordSource γ] (o : Options) (g : γ),
    (q.minimizeWith maxIter o g).1.RefusedFor w (SamplingFault q.bounds o) ∧
      ∀ e, SamplingFault q.bounds o e → (q.minimizeWith maxIter o g).2 = g
  minimize : ∀ s : Solver,
    (s.minimize q maxIter).1.RefusedFor w (SamplingFault q.bounds s.options) ∧
      ∀ e, SamplingFault q.bounds s.options e → (s.minimize q maxIter).2 = s
  solve : ∀ s : Solver,
    (s.solve q maxIter).1.RefusedFor w (SamplingFault q.bounds s.options) ∧
      ∀ e, SamplingFault q.bounds s.options e → (s.solve q maxIter).2 = s
  minimizeFrom : ∀ (s : Solver) (simplex : Matrix),
    (s.minimizeFrom q simplex maxIter).RefusedFor w (SimplexFault q.dimension s.options simplex) ∧
      ∀ answers, (Session.serve ⟨s, w, answers⟩ (.minimizeFrom q simplex maxIter)).solver = s

lemma refusedFor_sampled (q : Problem σ) (maxIter : ℕ) (w : σ) {γ : Type} [WordSource γ]
    (o : Options) (g : γ) :
    (q.minimizeWith maxIter o g).1.RefusedFor w (SamplingFault q.bounds o) := by
  have hrefused := q.refusedFor o maxIter (.sampled g) w
  simp only [objection?_sampled_iff] at hrefused
  exact hrefused

/-- Nothing is drawn for a request that is refused. -/
lemma generator_of_samplingFault {γ : Type} [WordSource γ] {o : Options} {e : SolverError}
    (h : SamplingFault q.bounds o e) (maxIter : ℕ) (g : γ) :
    (q.minimizeWith maxIter o g).2 = g := by
  refine generator_minimizeWith_of_not_validates (fun hvalidates => ?_) maxIter g
  have hnone := objection?_eq_none_iff.mpr (accepts_sampled_iff (g := g) |>.mpr hvalidates)
  cases hnone.symm.trans (objection?_sampled_iff.mpr h)

lemma refusedFor_given (q : Problem σ) (maxIter : ℕ) (w : σ) (o : Options) (simplex : Matrix) :
    (q.minimizeFrom simplex maxIter o).RefusedFor w (SimplexFault q.dimension o simplex) := by
  have hrefused := q.refusedFor o maxIter (.given simplex) w
  simp only [objection?_given_iff] at hrefused
  exact hrefused

end Problem

/-- A solver's output is refused with the result. -/
lemma Solver.refusedFor_solve {s : Solver} {q : Problem σ} {budget : ℕ} {w : σ}
    {fault : SolverError → Prop} (h : (s.minimize q budget).1.RefusedFor w fault) :
    (s.solve q budget).1.RefusedFor w fault where
  error_iff e he := by
    rw [← h.error_iff e he, exec_solve]
    rcases (s.minimize q budget).1.execIn w with ⟨e' | r, j⟩
    · show Except.error e' = Except.error (.error e) ↔ Except.error e' = Except.error (.error e)
      rw [Except.error.injEq, Except.error.injEq]
    · exact iff_of_false (nomatch ·) (nomatch ·)
  evalError?_eq_none := h.evalError?_eq_none
  calls e he := by rw [exec_solve, h.calls e he]
  world e he := by rw [exec_solve, h.world e he]

/-- **Requests are refused for the first fault**, and a request that is refused leaves no trace. -/
theorem Problem.refusals (q : Problem σ) (maxIter : ℕ) (w : σ) : q.Refusals maxIter w where
  samplingFault_iff _ := exists_samplingFault_iff
  simplexFault_iff _ _ := exists_simplexFault_iff
  minimizeWith o g :=
    ⟨q.refusedFor_sampled maxIter w o g, fun _ h => generator_of_samplingFault h maxIter g⟩
  minimize s :=
    ⟨q.refusedFor_sampled maxIter w s.options s.generator, fun _ h =>
      congrArg (Solver.mk s.options) (generator_of_samplingFault h maxIter s.generator)⟩
  solve s :=
    ⟨Solver.refusedFor_solve (q.refusedFor_sampled maxIter w s.options s.generator), fun _ h =>
      congrArg (Solver.mk s.options) (generator_of_samplingFault h maxIter s.generator)⟩
  minimizeFrom s simplex := ⟨q.refusedFor_given maxIter w s.options simplex, fun _ => rfl⟩

end NelderMead
