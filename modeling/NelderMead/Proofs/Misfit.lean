import NelderMead.Proofs.EntryPoints
import NelderMead.Proofs.OrderOnly

/-!
# Matrices of the wrong shape

When a problem is built, constraints are compared by the dimension they declare.  A quadratic
constraint declares that of its vector and says nothing of its matrix, so a matrix of the wrong
shape gets through.  It is found when the constraint is evaluated, and there it ends the run.

That is the only gap.  Apart from it, linear and quadratic constraints have values at all points of
the dimension, and no run ends in the failure of a constraint.

* `Constraint.WellShaped` — that the matrix of a quadratic constraint, if it is one, is square and
  as large as its vector is long.
* **`Constraint.exists_value_iff`** — only such constraints have values, and everywhere.
* `exec_constraintsFrom_misfit` — an evaluation that comes to a matrix of the wrong shape.
* `DecidedByShapes`, **`Problem.decidedByShapes`** — what the shapes decide about the runs of a
  problem.
* `not_checked_skewed` — a matrix that gets through.
-/

namespace NelderMead

variable {σ : Type}

/-! ## Constraints -/

namespace Constraint

/-- **The matrix of a quadratic constraint has the shape** that the declared dimension asks for. -/
def WellShaped : Constraint σ → Prop
  | quadratic g => g.q.rowCount = g.a.length ∧ g.q.cols = g.a.length
  | _ => True

variable {c : Constraint σ} {x : Point}

lemma fits_iff_wellShaped {g : QuadraticConstraint} (hdim : g.a.length = x.length) :
    g.Fits x ↔ (quadratic g : Constraint σ).WellShaped := by
  rw [QuadraticConstraint.Fits, WellShaped, hdim]
  exact ⟨fun h => ⟨h.1, h.2.1⟩, fun h => ⟨h.1, h.2, rfl⟩⟩

/-- Where the shape is right, a constraint that is no black box has a value. -/
lemma exists_value (hbox : c.isBlackBox = false) (hdim : Agrees x.length c.dimension)
    (hshape : c.WellShaped) (w : σ) : ∃ v, (c.evaluate x w).1 = .ok v := by
  cases c with
  | blackBox g => cases hbox
  | linear g =>
    obtain ⟨v, -, hv⟩ := exists_linear (hdim g.a.length rfl)
    exact ⟨v, hv w⟩
  | quadratic g =>
    have hfits := (fits_iff_wellShaped (hdim g.a.length rfl)).mpr hshape
    obtain ⟨v, hv⟩ := QuadraticConstraint.exists_form hfits
    refine ⟨v, ?_⟩
    show g.value x = .ok v
    rw [QuadraticConstraint.value, if_pos hfits, hv]
    rfl

/-- Where it is wrong, the constraint reports that the point does not fit. -/
lemma evaluate_misfit {g : QuadraticConstraint} (hdim : g.a.length = x.length)
    (hshape : ¬(quadratic g : Constraint σ).WellShaped) (w : σ) :
    ((quadratic g : Constraint σ).evaluate x w).1 = .error (.error (g.misfit x)) := by
  show g.value x = _
  rw [QuadraticConstraint.value, if_neg fun hfits => hshape ((fits_iff_wellShaped hdim).mp hfits)]

/-- **The constraints that have values** at a point of their dimension are those of the right
shape. -/
theorem exists_value_iff (hbox : c.isBlackBox = false) (hdim : Agrees x.length c.dimension) (w : σ) :
    (∃ v, (c.evaluate x w).1 = .ok v) ↔ c.WellShaped := by
  refine ⟨fun ⟨v, hv⟩ => ?_, fun hshape => exists_value hbox hdim hshape w⟩
  cases c with
  | blackBox g => cases hbox
  | linear g => trivial
  | quadratic g =>
    by_contra hshape
    rw [evaluate_misfit (hdim g.a.length rfl) hshape] at hv
    cases hv

end Constraint

/-! ## Evaluations -/

lemma exec_consult_of_error {t : Target} {x : Point}
    {ask : Point → StateM σ (Except (Failure EvalError) Float)} {e : Failure EvalError}
    {j : Journal σ} (rename : EvalError → SolverError) (h : (ask x j.world).1 = .error e) :
    ∃ j', ((Run.consult t x ask).mapError rename).exec j = (.error (e.map rename), j') := by
  rw [Run.exec_mapError, Run.exec_consult, h]
  exact ⟨_, rfl⟩

/-- Constraints are evaluated up to the first of the wrong shape. -/
lemma exec_constraintsFrom_misfit {x : Point} {before : List (Constraint σ)}
    {g : QuadraticConstraint} (rest : List (Constraint σ))
    (hbefore : ∀ c ∈ before, ∀ w, ∃ v, (c.evaluate x w).1 = .ok v)
    (hdim : g.a.length = x.length) (hshape : ¬(Constraint.quadratic g : Constraint σ).WellShaped)
    (i : ℕ) (j : Journal σ) :
    ∃ j', (PenaltyFunction.constraintsFrom x i (before ++ .quadratic g :: rest)).exec j =
      (.error (.error (.constraintEvaluation (i + before.length) (g.misfit x))), j') := by
  induction before generalizing i j with
  | nil =>
    obtain ⟨j₁, hmisfit⟩ := exec_consult_of_error (t := .constraint i) (.constraintEvaluation i)
      (Constraint.evaluate_misfit hdim hshape j.world)
    exact ⟨j₁, Run.exec_bind_eq_error.mpr (Or.inl hmisfit)⟩
  | cons c before ih =>
    obtain ⟨hc, hrest⟩ := List.forall_mem_cons.mp hbefore
    obtain ⟨v, hv⟩ := hc j.world
    obtain ⟨j₁, hfirst⟩ := exec_consult_of_ok (t := .constraint i) (.constraintEvaluation i) hv
    obtain ⟨j₂, hmisfit⟩ := ih hrest (i + 1) j₁
    rw [Nat.add_right_comm] at hmisfit
    exact ⟨j₂, Run.exec_bind_eq_error.mpr (Or.inr ⟨v, j₁, hfirst,
      Run.exec_bind_eq_error.mpr (Or.inl hmisfit)⟩)⟩

/-! ## Runs -/

/-- Constraints that have values never make a run fail. -/
lemma Problem.ne_constraintEvaluation {q : Problem σ}
    (hvalues : ∀ c ∈ q.constraints, ∀ x, x.length = q.dimension → ∀ w,
      ∃ v, (c.evaluate x w).1 = .ok v) (o : Options) (maxIter : ℕ) (start : Start) (w : σ) (i : ℕ)
    (e : EvalError) :
    ((q.run o maxIter start).execIn w).1 ≠ .error (.error (.constraintEvaluation i e)) := by
  intro hfail
  by_cases h : q.Accepts o start
  · obtain ⟨j₀, -, -, hends⟩ := h.ends maxIter w
    generalize (q.run o maxIter start).execIn w = out at hfail hends
    cases hends with
    | returned => cases hfail
    | noRoom => cases hfail
    | interrupted whole interrupted grows =>
      cases interrupted with
      | objective => cases hfail
      | constraint y dimension before source =>
        -- the failed call was answered by one of the constraints
        obtain ⟨u, u', hanswers⟩ := grows.history.exists_answers
          (List.mem_append_right _ (List.mem_append_right _ (List.mem_singleton.mpr rfl)))
        obtain ⟨g, hg, houtcome⟩ := hanswers.exists_constraint rfl
        obtain ⟨v, hv⟩ := hvalues g hg y.point dimension u
        cases houtcome.trans hv
  · obtain ⟨e', hsource, hrefuses⟩ := Problem.refuses_of_not_accepts h
    obtain ⟨j, hrefused, -⟩ := hrefuses maxIter w
    rw [hrefused] at hfail
    cases hfail
    cases hsource

/-- A search fails at its first point if its constraints do. -/
lemma exec_search_of_misfit {p : PenaltyFunction σ} {n maxIter : ℕ} {x : Point}
    {points : List Point} {e : SolverError} {f : Float} {j : Journal σ}
    (hobjective : (p.objective.call x j.world).1 = .ok f)
    (hmisfit : ∀ j', ∃ j'', (p.constraintsAt x).exec j' = (.error (.error e), j'')) :
    ((search p n (x :: points) maxIter).exec j).1 = .error (.error e) := by
  obtain ⟨j₁, hf⟩ := exec_objectiveAt hobjective
  obtain ⟨j₂, hg⟩ := hmisfit j₁
  have hevaluate : (Vertex.evaluate p x).exec j = (.error (.error e), j₂) :=
    Run.exec_bind_eq_error.mpr (Or.inl (Run.exec_bind_eq_error.mpr
      (Or.inr ⟨f, j₁, hf, Run.exec_bind_eq_error.mpr (Or.inl hg)⟩)))
  have hsimplex : ((x :: points).mapM (Vertex.evaluate p)).exec j = (.error (.error e), j₂) := by
    rw [List.mapM_cons]
    exact Run.exec_bind_eq_error.mpr (Or.inl hevaluate)
  rw [search_eq, Run.exec_bind, hsimplex]

/-- **What the shapes of constraints decide** about a problem. -/
structure DecidedByShapes (q : Problem σ) : Prop where
  /-- At a point of the dimension, the constraints of the right shape have values, and no others. -/
  values : ∀ c ∈ q.constraints, ∀ x w, x.length = q.dimension →
    ((∃ v, (c.evaluate x w).1 = .ok v) ↔ c.WellShaped)
  /-- If all have the right shape, no run ends in the failure of a constraint. -/
  never : (∀ c ∈ q.constraints, c.WellShaped) → ∀ o maxIter start w i e,
    ((q.run o maxIter start).execIn w).1 ≠ .error (.error (.constraintEvaluation i e))
  /-- If not, a run that can ask for the constraints at its first point ends with the first that has
  the wrong shape. -/
  always : ∀ before g rest, q.constraints = before ++ .quadratic g :: rest →
    (∀ c ∈ before, c.WellShaped) → ¬(Constraint.quadratic g : Constraint σ).WellShaped →
    ∀ o maxIter start w x f, q.Accepts o start → (start.points q o).head? = some x →
      (q.objective.call x w).1 = .ok f → ((q.run o maxIter start).execIn w).1 =
        .error (.error (.constraintEvaluation before.length (g.misfit x)))

/-- **The shapes decide** whether the constraints of a problem can fail, as long as none of them is a
black box. -/
theorem Problem.decidedByShapes (q : Problem σ)
    (hbox : ∀ c ∈ q.constraints, c.isBlackBox = false) : DecidedByShapes q where
  values c hc x w hx := by
    have hdim : Agrees x.length c.dimension := hx ▸ q.agrees_constraint c hc
    exact Constraint.exists_value_iff (hbox c hc) hdim w
  never hshape := by
    refine Problem.ne_constraintEvaluation fun c hc x hx w => ?_
    exact Constraint.exists_value (hbox c hc) (hx ▸ q.agrees_constraint c hc) (hshape c hc) w
  always := by
    intro before g rest hsplit hbefore hshape o maxIter start w x f h hfirst hobjective
    obtain ⟨points, hpoints⟩ := List.head?_eq_some_iff.mp hfirst
    have hx : x.length = q.dimension :=
      h.length_of_mem_points x (hpoints ▸ List.mem_cons_self)
    have hmem : ∀ c ∈ before, c ∈ q.constraints := fun c hc =>
      hsplit ▸ List.mem_append_left _ hc
    have hvalues : ∀ c ∈ before, ∀ w, ∃ v, (c.evaluate x w).1 = .ok v := fun c hc w =>
      Constraint.exists_value (hbox c (hmem c hc)) (hx ▸ q.agrees_constraint c (hmem c hc))
        (hbefore c hc) w
    have hquadratic : Constraint.quadratic g ∈ q.constraints := by
      rw [hsplit]
      exact List.mem_append_right _ List.mem_cons_self
    have hdim : g.a.length = x.length :=
      (q.agrees_constraint _ hquadratic g.a.length rfl).trans hx.symm
    have hworld : (start.journal q maxIter h.penalty w).world = w := by
      cases start <;> rfl
    rw [h.exec_run_eq, hpoints]
    refine exec_search_of_misfit (f := f) (by rwa [hworld]) fun j => ?_
    obtain ⟨j', hmisfit⟩ := exec_constraintsFrom_misfit rest hvalues hdim hshape 0 j
    rw [Nat.zero_add, ← hsplit] at hmisfit
    exact ⟨j', hmisfit⟩

/-! ## A matrix that gets through -/

/-- A matrix for points of a plane, beside a vector for points of a line. -/
def oversized : QuadraticConstraint := ⟨⟨2, [[1.0, 0.0], [0.0, 1.0]], by decide⟩, [0.0], -1.0⟩

/-- The square on a line, with such a matrix among the constraints. -/
def skewed : Problem Unit where
  objective := square.objective
  x0 := [1.0]
  bounds := square.bounds
  constraints := [.quadratic oversized]
  x0_ne_nil := square.x0_ne_nil
  length_bounds := square.length_bounds
  agrees_objective := square.agrees_objective
  agrees_constraint := by decide

lemma accepts_skewed : skewed.Accepts {} (.given segment) :=
  ⟨by decide +kernel, by decide +kernel, rfl, rfl⟩

theorem decidedByShapes_skewed : (∀ c ∈ skewed.constraints, c.isBlackBox = false) ∧
    ((skewed.minimizeFrom segment 1 {}).execIn ()).1 =
      .error (.error (.constraintEvaluation 0 (oversized.misfit [3.0]))) := by
  have hbox : ∀ c ∈ skewed.constraints, c.isBlackBox = false := by decide
  have hshape : ¬(Constraint.quadratic oversized : Constraint Unit).WellShaped := fun h =>
    absurd h.1 (by decide)
  exact ⟨hbox, (skewed.decidedByShapes hbox).always [] oversized [] rfl (List.forall_mem_nil _) hshape
    {} 1 (.given segment) () [3.0] _ accepts_skewed rfl rfl⟩

/-- The problem is built, and none of its constraints is a black box, but at a point of its dimension
the constraint has no value. -/
theorem not_checked_skewed :
    Problem.of square.objective [1.0] square.bounds [.quadratic oversized] = .ok skewed ∧
      (∀ c ∈ skewed.constraints, c.isBlackBox = false) ∧
      ((Constraint.quadratic oversized).evaluate [3.0] ()).1 =
        .error (.error (oversized.misfit [3.0])) ∧
      ((skewed.minimizeFrom segment 1 {}).execIn ()).1 =
        .error (.error (.constraintEvaluation 0 (oversized.misfit [3.0]))) := by
  exact ⟨rfl, by decide, rfl, rfl⟩

end NelderMead
