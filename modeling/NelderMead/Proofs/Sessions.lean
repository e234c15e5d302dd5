import NelderMead.Proofs.Sampling

/-!
# Sessions

A solver serves one request after the other and keeps its generator between them.  Each request that
samples a simplex in dimension `n` and passes the checks draws `n * (n + 1)` normal numbers, and
nothing else touches the generator: not what the functions return, not their failures, not the
number of iterations, and no request that is refused or brings a simplex of its own.  So the
dimensions of the sampled simplexes are all that later draws can tell of the past.

* `Request`, `Solver.serve` — what a solver can be asked for, and what serving it leaves behind.
* `Solver.session` — some requests, one after the other.
* `Request.sampledDimension?` — the dimension of the simplex that a request samples, if it does.
* **`Solver.serve_solver`** — what one request does to a solver.
* **`Solver.disciplined`** — what a session does to it, and that seeded sessions are reproduced.
-/

namespace NelderMead

open NelderMead.Random

/-! ## Requests -/

/-- **What a solver is asked for.** -/
inductive Request (σ : Type) where
  | minimize (q : Problem σ) (maxIter : ℕ)
  | solve (q : Problem σ) (budget : ℕ)
  | minimizeFrom (q : Problem σ) (simplex : Matrix) (maxIter : ℕ)

/-- What came of a request: a result or an output, if it succeeded. -/
abbrev Answer : Type := Except (Failure SolverError) (SearchResult ⊕ SolverOutput)

/-- **A solver at work**, with the world that the functions of its requests act on and the answers
that it gave. -/
structure Session (σ : Type) where
  solver : Solver
  world : σ
  answers : List Answer

variable {σ : Type}

/-- Serves a request.  Whatever comes of it, the solver and the world are those that it leaves. -/
def Session.serve (t : Session σ) : Request σ → Session σ
  | .minimize q maxIter =>
    let (run, solver) := t.solver.minimize q maxIter
    let (outcome, journal) := run.execIn t.world
    ⟨solver, journal.world, t.answers ++ [outcome.map .inl]⟩
  | .solve q budget =>
    let (run, solver) := t.solver.solve q budget
    let (outcome, journal) := run.execIn t.world
    ⟨solver, journal.world, t.answers ++ [outcome.map .inr]⟩
  | .minimizeFrom q simplex maxIter =>
    let (outcome, journal) := (t.solver.minimizeFrom q simplex maxIter).execIn t.world
    ⟨t.solver, journal.world, t.answers ++ [outcome.map .inl]⟩

/-- **Serves requests in order**, from the world `w` on. -/
def Solver.session (s : Solver) (w : σ) (rs : List (Request σ)) : Session σ :=
  rs.foldl Session.serve ⟨s, w, []⟩

/-! ## What is drawn -/

/-- The dimension of the simplex that a request samples, if it passes the checks. -/
def Request.sampledDimension? (o : Options) : Request σ → Option ℕ
  | .minimize q _ => if q.Validates o then some q.dimension else none
  | .solve q _ => if q.Validates o then some q.dimension else none
  | .minimizeFrom _ _ _ => none

/-- The dimensions of the simplexes that some requests sample, in order. -/
def sampledDimensions (o : Options) (rs : List (Request σ)) : List ℕ :=
  rs.filterMap (·.sampledDimension? o)

/-- How many normal numbers simplexes of the given dimensions take. -/
def drawCount (ns : List ℕ) : ℕ := (ns.map fun n => n * (n + 1)).sum

/-- The solver behind `k` draws. -/
def Solver.drawn (s : Solver) (k : ℕ) : Solver := { s with generator := advance k s.generator }

namespace Solver

variable (s : Solver)

lemma drawn_zero : s.drawn 0 = s := rfl

lemma drawn_drawn (k l : ℕ) : (s.drawn k).drawn l = s.drawn (k + l) :=
  congrArg (Solver.mk s.options) (advance_add k l s.generator).symm

/-! ## One request -/

lemma minimize_solver (q : Problem σ) (maxIter : ℕ) :
    (s.minimize q maxIter).2 =
      s.drawn (drawCount (if q.Validates s.options then some q.dimension else none).toList) := by
  have hsolver : (s.minimize q maxIter).2 =
      ⟨s.options, (q.minimizeWith maxIter s.options s.generator).2⟩ := rfl
  rw [hsolver]
  split_ifs with h
  · rw [h.generator_minimizeWith]
    rfl
  · rw [Problem.generator_minimizeWith_of_not_validates h]
    rfl

/-- **What one request does to a solver**: it draws a simplex, or nothing. -/
theorem serve_solver (t : Session σ) (r : Request σ) :
    (t.serve r).solver =
      t.solver.drawn (drawCount (r.sampledDimension? t.solver.options).toList) := by
  cases r with
  | minimize q maxIter => exact t.solver.minimize_solver q maxIter
  | solve q budget => exact t.solver.minimize_solver q budget
  | minimizeFrom q simplex maxIter => rfl

/-! ## Sessions -/

lemma drawCount_append (ms ns : List ℕ) : drawCount (ms ++ ns) = drawCount ms + drawCount ns := by
  rw [drawCount, List.map_append, List.sum_append, drawCount, drawCount]

/-- **What some requests do to a solver.** -/
theorem foldl_serve_solver (rs : List (Request σ)) (t : Session σ) :
    (rs.foldl Session.serve t).solver =
      t.solver.drawn (drawCount (sampledDimensions t.solver.options rs)) := by
  induction rs generalizing t with
  | nil => exact t.solver.drawn_zero.symm
  | cons r rs ih =>
    have hdimensions : sampledDimensions t.solver.options (r :: rs) =
        (r.sampledDimension? t.solver.options).toList ++ sampledDimensions t.solver.options rs := by
      rw [sampledDimensions, List.filterMap_cons]
      cases r.sampledDimension? t.solver.options <;> rfl
    rw [List.foldl_cons, ih, serve_solver, drawn_drawn, hdimensions, drawCount_append]
    rfl

/-- **The discipline of a generator** over a session of the solver `s`. -/
structure Disciplined (s : Solver) (w : σ) (rs : List (Request σ)) : Prop where
  /-- The generator is moved by the simplexes that were sampled and by nothing else. -/
  advances : (s.session w rs).solver.generator =
    advance (drawCount (sampledDimensions s.options rs)) s.generator
  /-- The options are never changed. -/
  keeps : (s.session w rs).solver.options = s.options
  /-- If the solver is seeded, then any other with this seed that sampled simplexes of the same
  dimensions draws the same numbers from there on. -/
  reproduces : ∀ (seed : UInt64) (unseeded : ChaCha8), s.options.seed = some seed →
    s = of s.options unseeded →
      ∀ (τ : Type) (o : Options) (unseeded' : ChaCha8) (w' : τ) (rs' : List (Request τ)),
        o.seed = some seed → sampledDimensions o rs' = sampledDimensions s.options rs →
          ∀ k, standardNormals k ((of o unseeded').session w' rs').solver.generator =
            standardNormals k (s.session w rs).solver.generator

/-- **A solver's generator is disciplined**, whatever it is asked for. -/
theorem disciplined (s : Solver) (w : σ) (rs : List (Request σ)) : s.Disciplined w rs := by
  have hsession : ∀ {τ : Type} (s : Solver) (w : τ) (rs : List (Request τ)),
      (s.session w rs).solver = s.drawn (drawCount (sampledDimensions s.options rs)) :=
    fun s w rs => foldl_serve_solver rs ⟨s, w, []⟩
  refine ⟨by rw [hsession]; rfl, by rw [hsession]; rfl, ?_⟩
  intro seed unseeded hseed hs τ o unseeded' w' rs' hseed' hdimensions k
  have hof : ∀ {o : Options} (u : ChaCha8), o.seed = some seed →
      (of o u).generator = ChaCha8.ofSeed seed := by
    intro o u ho
    rw [of, ho]
  rw [hsession, hsession, drawn, drawn]
  have hoptions : (of o unseeded').options = o := rfl
  rw [hoptions, hdimensions, hof _ hseed', hs, hof _ hseed]

/-- Two sessions that sample one simplex on a line, with other options and other requests around
it. -/
theorem disciplined_seven :
    standardNormals 2 ((of { seed := some 7, mu := 1.0 } (.ofSeed 0)).session ()
        [.minimizeFrom square segment 1, .solve square 4]).solver.generator =
      standardNormals 2 (seven.session () [.minimize square 3]).solver.generator :=
  (seven.disciplined () [.minimize square 3]).reproduces 7 (.ofSeed 0) rfl rfl Unit _ _ () _ rfl
    (by decide +kernel) 2

end Solver

end NelderMead
