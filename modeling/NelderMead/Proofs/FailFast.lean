import NelderMead.Proofs.Ending
import NelderMead.Proofs.EntryPoints

/-!
# Failures are fatal

A run fails if and only if a function that it evaluates fails, and then it evaluates nothing more.
Its error names the function and keeps what the function reported.

* `Call.Failed` — that a call did not return a value; the calls of a sample all did.
* `Target.cause` — the error for a function that failed.
* `Interrupted.exists_last` — an interrupted evaluation ends with its only failure.
* **`Problem.Accepts.failsFast`** — how an accepted request fails.
-/

namespace NelderMead

variable {σ : Type}

/-! ## Failed calls -/

/-- The call did not return a value. -/
def Call.Failed (c : Call) : Prop := ∃ e, c.outcome = .error e

lemma Sample.not_failed {y : Sample} {c : Call} (h : c ∈ y.calls) : ¬c.Failed := by
  rintro ⟨e, he⟩
  rcases List.mem_cons.mp h with rfl | h
  · cases he
  · obtain ⟨g, -, rfl⟩ := List.mem_map.mp h
    cases he

/-- Nothing fails in whole evaluations. -/
lemma not_failed_of_mem_flatMap {ys : List Sample} {c : Call} (h : c ∈ ys.flatMap Sample.calls) :
    ¬c.Failed := by
  obtain ⟨y, -, hc⟩ := List.mem_flatMap.mp h
  exact Sample.not_failed hc

/-- **The error of a run** in which the function `t` failed and reported `source`. -/
def Target.cause (source : EvalError) : Target → SolverError
  | objective => .functionEvaluation source
  | constraint i => .constraintEvaluation i source

/-- The error gives back what the function reported. -/
lemma Target.evalError?_cause (source : EvalError) (t : Target) :
    (t.cause source).evalError? = some source := by
  cases t <;> rfl

/-- **An interrupted evaluation** ends with its only failure. -/
lemma Interrupted.exists_last {n m : ℕ} {cs : List Call} {e : SolverError}
    (h : Interrupted n m cs e) :
    ∃ (before : List Call) (last : Call) (source : EvalError), cs = before ++ [last] ∧
      last.outcome = .error (.error source) ∧ e = last.target.cause source ∧
      ∀ c ∈ before, ¬c.Failed := by
  cases h with
  | objective x dimension source =>
    exact ⟨[], _, source, rfl, rfl, rfl, List.forall_mem_nil _⟩
  | constraint y dimension before source =>
    exact ⟨y.calls, _, source, rfl, rfl, rfl, fun c hc => Sample.not_failed hc⟩

/-! ## Runs that fail -/

/-- **How a run fails** that begins in the world `w` and ends with the given outcome and journal. -/
structure FailsFast (q : Problem σ) (maxIter : ℕ) (w : σ)
    (outcome : Except (Failure SolverError) SearchResult) (j : Journal σ) : Prop where
  /-- The log leaves out no evaluation. -/
  history : History q.objective q.constraints w j.calls.toList j.world
  error_iff : (∃ e, outcome = .error (.error e)) ↔ ∃ c ∈ j.calls.toList, c.Failed
  /-- The log of a run that fails consists of whole evaluations and an interrupted one. -/
  log : ∀ e, outcome = .error (.error e) →
    ∃ (ys : List Sample) (before : List Call) (last : Call),
      j.calls.toList = ys.flatMap Sample.calls ++ (before ++ [last]) ∧
      (∀ y ∈ ys, y.Shaped q.dimension q.constraintCount) ∧
      Interrupted q.dimension q.constraintCount (before ++ [last]) e
  /-- Its last call is the one that failed, and the error says so. -/
  last : ∀ e, outcome = .error (.error e) →
    ∃ (before : List Call) (last : Call) (source : EvalError),
      j.calls.toList = before ++ [last] ∧ last.outcome = .error (.error source) ∧
      (∀ c ∈ before, ¬c.Failed) ∧ e = last.target.cause source ∧ e.evalError? = some source
  /-- Where there is room for the trace, a run without a failed call returns a result. -/
  returns : Trace.Fits q.dimension q.constraintCount maxIter →
    (∀ c ∈ j.calls.toList, ¬c.Failed) → ∃ r, outcome = .ok r

/-- **Failures are fatal**, and nothing else is. -/
theorem Problem.Accepts.failsFast {q : Problem σ} {o : Options} {start : Start}
    (h : q.Accepts o start) {maxIter : ℕ} {w : σ}
    {outcome : Except (Failure SolverError) SearchResult} {j : Journal σ}
    (hrun : (q.run o maxIter start).execIn w = (outcome, j)) :
    FailsFast q maxIter w outcome j := by
  obtain ⟨j₀, rfl, hempty, hends⟩ := h.ends maxIter w
  rw [hrun] at hends
  cases hends with
  | @returned r _ ys value whole grows =>
    have hcalls := grows.calls_eq hempty
    have hnone : ∀ c ∈ j.calls.toList, ¬c.Failed := by
      rw [hcalls]
      exact fun c hc => not_failed_of_mem_flatMap hc
    exact
      { history := hcalls ▸ grows.history
        error_iff := iff_of_false (fun ⟨e, he⟩ => nomatch he) fun ⟨c, hc, hfailed⟩ =>
          hnone c hc hfailed
        log := fun e he => nomatch he
        last := fun e he => nomatch he
        returns := fun _ _ => ⟨r, rfl⟩ }
  | @interrupted e _ ys cs whole interrupted grows =>
    have hcalls := grows.calls_eq hempty
    obtain ⟨before, last, source, rfl, hlast, rfl, hbefore⟩ := interrupted.exists_last
    have hfailed : ∃ c ∈ j.calls.toList, c.Failed := by
      refine ⟨last, ?_, _, hlast⟩
      rw [hcalls]
      simp
    refine
      { history := hcalls ▸ grows.history
        error_iff := iff_of_true ⟨_, rfl⟩ hfailed
        log := ?_
        last := ?_
        returns := fun _ hnone => ?_ }
    · rintro _ ⟨⟩
      exact ⟨ys, before, last, hcalls, whole, interrupted⟩
    · rintro _ ⟨⟩
      refine ⟨ys.flatMap Sample.calls ++ before, last, source, ?_, hlast, ?_, rfl,
        Target.evalError?_cause source _⟩
      · rw [hcalls, List.append_assoc]
      · exact List.forall_mem_append.mpr ⟨fun c hc => not_failed_of_mem_flatMap hc, hbefore⟩
    · obtain ⟨c, hc, hcfailed⟩ := hfailed
      exact absurd hcfailed (hnone c hc)
  | @noRoom f _ ys full whole grows =>
    have hcalls := grows.calls_eq hempty
    exact
      { history := hcalls ▸ grows.history
        error_iff := iff_of_false (fun ⟨e, he⟩ => nomatch he) fun ⟨c, hc, hfailed⟩ =>
          not_failed_of_mem_flatMap (hcalls ▸ hc) hfailed
        log := fun e he => nomatch he
        last := fun e he => nomatch he
        returns := fun hroom _ => absurd hroom full }

/-! ## A run that fails -/

/-- The identity, which fails below one and a half. -/
def brittle : Problem Unit where
  objective := .ofPoint fun x =>
    if x.headD 0.0 < 1.5 then .error ⟨"below"⟩ else .ok (x.headD 0.0)
  x0 := square.x0
  bounds := square.bounds
  constraints := []
  x0_ne_nil := square.x0_ne_nil
  length_bounds := square.length_bounds
  agrees_objective := fun _ hd => nomatch hd
  agrees_constraint := List.forall_mem_nil _

lemma accepts_brittle : brittle.Accepts {} (.given segment) :=
  ⟨by decide +kernel, by decide +kernel, rfl, rfl⟩

/-- The first reflected point is one, where the identity fails. -/
lemma exec_brittle : ∃ e j,
    (brittle.run {} 1 (.given segment)).execIn () = (.error (.error e), j) ∧ j.calls.size = 3 := by
  have hfails : (match (brittle.run {} 1 (.given segment)).execIn () with
      | (.error (.error _), j) => decide (j.calls.size = 3)
      | _ => false) = true := by
    decide +kernel
  rcases hrun : (brittle.run {} 1 (.given segment)).execIn () with ⟨(e | f) | r, j⟩
  · rw [hrun] at hfails
    exact ⟨e, j, rfl, of_decide_eq_true hfails⟩
  · rw [hrun] at hfails
    cases hfails
  · rw [hrun] at hfails
    cases hfails

theorem failsFast_brittle : ∃ e j,
    (brittle.run {} 1 (.given segment)).execIn () = (.error (.error e), j) ∧
      j.calls.size = 3 ∧ FailsFast brittle 1 () (.error (.error e)) j := by
  obtain ⟨e, j, hrun, hsize⟩ := exec_brittle
  exact ⟨e, j, hrun, hsize, accepts_brittle.failsFast hrun⟩

end NelderMead
