import NelderMead.Proofs.EntryPoints
import NelderMead.Proofs.Ending

/-!
# Functions that never fail

Functions that never fail may still keep a state and return whatever they like.  Nothing is
interrupted then, so an accepted request has a result wherever there is room for the trace, and
stops behind its first simplex where there is none.

* `Problem.NeverFails` — functions that never fail; **`NeverFails.exists_ok`** says that what has room
  returns.
* **`Problem.NeverFails.exists_result`**, `Stops`, **`Problem.NeverFails.stops`** — what comes of a
  request with room and without it.
* `PenaltyFunction.NeverFails`, `NeverFails.exists_evaluate` — the same functions with a penalty, and
  one evaluation.
-/

namespace NelderMead

variable {σ : Type}

/-- **The functions never fail** at points of the dimension.  What they return may depend on the
world. -/
structure Problem.NeverFails (q : Problem σ) : Prop where
  objective : ∀ x, x.length = q.dimension → ∀ w, ∃ v, (q.objective.call x w).1 = .ok v
  constraints : ∀ c ∈ q.constraints, ∀ x, x.length = q.dimension → ∀ w,
    ∃ v, (c.evaluate x w).1 = .ok v

/-- **A run that stops after its first simplex**, for want of room. -/
structure Stops (points : List Point)
    (out : Except (Failure SolverError) SearchResult × Journal σ) : Prop where
  fault : ∃ f, out.1 = .error (.fault f)
  whole : out.2.calls.toList = out.2.samples.flatMap Sample.calls
  points : out.2.samples.map Sample.point = points

namespace Problem.NeverFails

variable {q : Problem σ} {o : Options} {start : Start} {maxIter : ℕ}

/-- **What has room returns** if the functions never fail. -/
theorem exists_ok (hq : q.NeverFails) (h : q.Accepts o start) {room : Prop} (hroom : room)
    {α : Type} {Q : α → Prop} {j : Journal σ} {out : Except (Failure SolverError) α × Journal σ}
    (hends : Ends h.penalty q.dimension room Q j out) : ∃ a j', out = (.ok a, j') ∧ Q a := by
  cases hends with
  | returned value => exact ⟨_, _, rfl, value⟩
  | noRoom full => exact absurd hroom full
  | interrupted whole interrupted grows =>
    -- the failed call was answered by a function that never fails
    cases interrupted with
    | objective x dimension source =>
      obtain ⟨u, u', hanswers⟩ := grows.history.exists_answers
        (List.mem_append_right _ (List.mem_singleton.mpr rfl))
      have houtcome := hanswers.outcome_of_objective rfl
      obtain ⟨v, hv⟩ := hq.objective x dimension u
      have hcall : (h.penalty.objective.call x u).1 = .ok v := hv
      rw [hcall] at houtcome
      cases houtcome
    | constraint y dimension before source =>
      obtain ⟨u, u', hanswers⟩ := grows.history.exists_answers
        (List.mem_append_right _ (List.mem_append_right _ (List.mem_singleton.mpr rfl)))
      obtain ⟨c, hc, houtcome⟩ := hanswers.exists_constraint rfl
      obtain ⟨v, hv⟩ := hq.constraints c hc y.point dimension u
      cases houtcome.trans hv

/-- **Where there is room for the trace**, an accepted request has a result. -/
theorem exists_result (hq : q.NeverFails) (h : q.Accepts o start)
    (hfits : Trace.Fits q.dimension q.constraintCount maxIter) (w : σ) :
    ∃ r j, (q.run o maxIter start).execIn w = (.ok r, j) := by
  obtain ⟨j₀, -, -, hends⟩ := h.ends maxIter w
  obtain ⟨r, j, hrun, -⟩ := hq.exists_ok h hfits hends
  exact ⟨r, j, hrun⟩

/-- **Without room** it stops behind its first simplex. -/
theorem stops (hq : q.NeverFails) (h : q.Accepts o start)
    (hfull : ¬Trace.Fits q.dimension q.constraintCount maxIter) (w : σ) :
    Stops (start.points q o) ((q.run o maxIter start).execIn w) := by
  obtain ⟨vs, j, hvs, -⟩ := hq.exists_ok h trivial (ends_mapM_evaluate q.agrees_constraint
    h.length_of_mem_points (start.journal q maxIter h.penalty w))
  have hfault := Search.goOn_of_not_fits (p := h.penalty) hfull (start.points q o) vs j
  rw [h.exec_run_eq, search_eq, Run.exec_bind, hvs]
  dsimp only
  rw [hfault]
  obtain ⟨hpoints, hevaluated⟩ := evaluated_of_mapM hvs
  have hcalls := hevaluated.calls
  rw [start.calls_journal] at hcalls
  have hsamples : j.samples = vs.map Vertex.sample := by
    rw [Journal.samples, hcalls]
    exact samplesOf_flatMap _
  refine ⟨⟨_, rfl⟩, hsamples ▸ hcalls, ?_⟩
  rw [hsamples, List.map_map]
  exact hpoints

end Problem.NeverFails

/-! ## Evaluations -/

/-- **The functions never fail** at points of dimension `n`.  What they return may depend on the
world. -/
structure PenaltyFunction.NeverFails (p : PenaltyFunction σ) (n : ℕ) : Prop where
  objective : ∀ x, x.length = n → ∀ w, ∃ v, (p.objective.call x w).1 = .ok v
  constraints : ∀ c ∈ p.constraints, ∀ x, x.length = n → ∀ w, ∃ v, (c.evaluate x w).1 = .ok v

/-- The functions of an accepted request never fail if those of its problem do not. -/
lemma Problem.NeverFails.penalty {q : Problem σ} (hq : q.NeverFails) {o : Options} {start : Start}
    (h : q.Accepts o start) : h.penalty.NeverFails q.dimension :=
  ⟨hq.objective, hq.constraints⟩

lemma Run.exists_consult (target : Target) {x : Point}
    (ask : Point → StateM σ (Except (Failure EvalError) Float)) (rename : EvalError → SolverError)
    {j : Journal σ} (h : ∃ v, (ask x j.world).1 = .ok v) :
    ∃ v j', ((Run.consult target x ask).mapError rename).exec j = (.ok v, j') := by
  obtain ⟨v, hv⟩ := h
  rw [exec_mapError, exec_consult, hv]
  exact ⟨v, _, rfl⟩

lemma exists_constraintsFrom {x : Point} {cs : List (Constraint σ)}
    (hcs : ∀ c ∈ cs, ∀ w, ∃ v, (c.evaluate x w).1 = .ok v) (i : ℕ) (j : Journal σ) :
    ∃ gs j', (PenaltyFunction.constraintsFrom x i cs).exec j = (.ok gs, j') := by
  induction cs generalizing i j with
  | nil => exact ⟨[], j, rfl⟩
  | cons c cs ih =>
    obtain ⟨hc, hrest⟩ := List.forall_mem_cons.mp hcs
    obtain ⟨g, j₁, hg⟩ := Run.exists_consult (.constraint i) c.evaluate (.constraintEvaluation i)
      (hc j.world)
    obtain ⟨gs, j₂, hgs⟩ := ih hrest (i + 1) j₁
    exact ⟨g :: gs, j₂, Run.exec_bind_eq_ok.mpr
      ⟨g, j₁, hg, Run.exec_bind_eq_ok.mpr ⟨gs, j₂, hgs, rfl⟩⟩⟩

lemma PenaltyFunction.NeverFails.exists_evaluate {p : PenaltyFunction σ} {n : ℕ} {x : Point}
    (hp : p.NeverFails n) (hx : x.length = n) (j : Journal σ) :
    ∃ found j', (Vertex.evaluate p x).exec j = (.ok ⟨x, found⟩, j') := by
  have hobjective : ∃ v, ((p.objective.call x).run j.world).1.mapError Failure.error = .ok v := by
    obtain ⟨v, hv⟩ := hp.objective x hx j.world
    exact ⟨v, congrArg (Except.mapError Failure.error) hv⟩
  obtain ⟨f, j₁, hf⟩ := Run.exists_consult .objective
    (fun x => do return (← p.objective.call x).mapError .error) .functionEvaluation hobjective
  obtain ⟨gs, j₂, hgs⟩ := exists_constraintsFrom (fun c hc => hp.constraints c hc x hx) 0 j₁
  have hfound : (p.evaluate x).exec j = (.ok (p.combine f gs), j₂) :=
    Run.exec_bind_eq_ok.mpr ⟨f, j₁, hf, Run.exec_bind_eq_ok.mpr ⟨gs, j₂, hgs, rfl⟩⟩
  exact ⟨_, j₂, Run.exec_bind_eq_ok.mpr ⟨_, j₂, hfound, rfl⟩⟩

end NelderMead
