import NelderMead.Proofs.Evaluation

/-!
# The journal is a history

Functions of a problem may keep a state in the caller's world, so what one of them returns at a
point depends on when it is asked.  The journal leaves nothing of that out: each of its calls was answered
in the world that the call before it left, and nothing but these calls acted on the world.

* `Answers` — one call, answered by the objective or by a constraint.
* `History` — calls answered one after the other; `History.append` joins two of them.
* `Journal.Grows` — that a journal goes on from another by such calls.
* `Sample.ShowsValues` — what a sample says of functions that depend on the point alone;
  **`History.showsValues`** says so of every sample whose calls are in a history.
-/

namespace NelderMead

variable {σ : Type}

/-! ## Calls and their answers -/

section Answers

variable (f : BlackBox σ) (gs : List (Constraint σ))

/-- **The call was answered** in the world `w`, by the objective `f` or by one of the constraints
`gs`, and left the world `w'`. -/
inductive Answers (w : σ) : Call → σ → Prop
  | objective (x : Point) :
      Answers w ⟨.objective, x, (f.call x w).1.mapError .error⟩ (f.call x w).2
  | constraint (x : Point) {i : ℕ} {g : Constraint σ} (listed : gs[i]? = some g) :
      Answers w ⟨.constraint i, x, (g.evaluate x w).1⟩ (g.evaluate x w).2

/-- **The calls were answered one after the other**, which took the world from `w` to `w'`. -/
inductive History : σ → List Call → σ → Prop
  | nil (w : σ) : History w [] w
  | cons {w w' w'' : σ} {c : Call} {cs : List Call} (first : Answers f gs w c w')
      (rest : History w' cs w'') : History w (c :: cs) w''

end Answers

namespace Answers

variable {f : BlackBox σ} {gs : List (Constraint σ)} {w w' : σ} {c : Call}

lemma outcome_of_objective (h : Answers f gs w c w') (hc : c.target = .objective) :
    c.outcome = (f.call c.point w).1.mapError .error := by
  cases h with
  | objective x => rfl
  | constraint x listed => cases hc

lemma outcome_of_constraint {i : ℕ} {g : Constraint σ} (h : Answers f gs w c w')
    (hc : c.target = .constraint i) (hg : gs[i]? = some g) :
    c.outcome = (g.evaluate c.point w).1 := by
  cases h with
  | objective x => cases hc
  | constraint x listed =>
    cases hc
    rw [Option.some.inj (hg.symm.trans listed)]

/-- The constraint that answered a call. -/
lemma exists_constraint {i : ℕ} (h : Answers f gs w c w') (hc : c.target = .constraint i) :
    ∃ g ∈ gs, c.outcome = (g.evaluate c.point w).1 := by
  cases h with
  | objective x => cases hc
  | constraint x listed => exact ⟨_, List.mem_of_getElem? listed, rfl⟩

end Answers

namespace History

variable {f : BlackBox σ} {gs : List (Constraint σ)} {w w' w'' : σ} {cs ds : List Call}

lemma append (h : History f gs w cs w') (h' : History f gs w' ds w'') :
    History f gs w (cs ++ ds) w'' := by
  induction h with
  | nil w => exact h'
  | cons first rest ih => exact .cons first (ih h')

lemma singleton {c : Call} (h : Answers f gs w c w') : History f gs w [c] w' :=
  .cons h (.nil w')

/-- Every call of a history was answered in some world. -/
lemma exists_answers (h : History f gs w cs w') {c : Call} (hc : c ∈ cs) :
    ∃ u u', Answers f gs u c u' := by
  induction h with
  | nil w => cases hc
  | cons first rest ih =>
    rcases List.mem_cons.mp hc with rfl | hc
    · exact ⟨_, _, first⟩
    · exact ih hc

end History

/-- **The journal goes on** from `j` to `j'` by the calls `cs`, which functions of `p` answered. -/
structure Journal.Grows (p : PenaltyFunction σ) (j j' : Journal σ) (cs : List Call) : Prop where
  calls : j'.calls.toList = j.calls.toList ++ cs
  history : History p.objective p.constraints j.world cs j'.world

namespace Journal.Grows

variable {p : PenaltyFunction σ} {j j' j'' : Journal σ} {cs ds : List Call}

lemma refl (p : PenaltyFunction σ) (j : Journal σ) : Grows p j j [] :=
  ⟨(List.append_nil _).symm, .nil _⟩

/-- A journal that goes on from one without calls has no other calls. -/
lemma calls_eq (h : Grows p j j' cs) (hj : j.calls = #[]) : j'.calls.toList = cs := by
  rw [h.calls, hj]
  rfl

lemma trans (h : Grows p j j' cs) (h' : Grows p j' j'' ds) : Grows p j j'' (cs ++ ds) where
  calls := by rw [h'.calls, h.calls, List.append_assoc]
  history := h.history.append h'.history

end Journal.Grows

/-! ## Functions of the point alone -/

/-- The constraint computes `value` and leaves the world alone. -/
def Constraint.DependsOnPoint (g : Constraint σ)
    (value : Point → Except (Failure EvalError) Float) : Prop :=
  ∀ x w, (g.evaluate x).run w = (value x, w)

/-- **The sample shows the values at its point** of whatever function depends on the point alone. -/
structure Sample.ShowsValues (f : BlackBox σ) (gs : List (Constraint σ)) (y : Sample) : Prop where
  length_constraints : y.constraints.length = gs.length
  objective : ∀ value, f.DependsOnPoint value → value y.point = .ok y.objective
  constraint : ∀ (i : ℕ) (g : Constraint σ) (value : Point → Except (Failure EvalError) Float),
    gs[i]? = some g → g.DependsOnPoint value →
      ∃ v, y.constraints[i]? = some v ∧ value y.point = .ok v

lemma mem_constraintCalls {x vs : Point} {i : ℕ} {v : Float} (h : vs[i]? = some v) :
    (⟨.constraint i, x, .ok v⟩ : Call) ∈ constraintCalls x 0 vs := by
  refine List.mem_map.mpr ⟨(v, i), ?_, rfl⟩
  exact List.mem_zipIdx_iff_getElem?.mpr h

/-- **What a history says of a sample** whose calls are in it. -/
theorem History.showsValues {f : BlackBox σ} {gs : List (Constraint σ)} {w w' : σ}
    {cs : List Call} (h : History f gs w cs w') {y : Sample} (hy : y.calls ⊆ cs)
    (hlength : y.constraints.length = gs.length) : y.ShowsValues f gs where
  length_constraints := hlength
  objective := by
    intro value hvalue
    obtain ⟨u, u', hanswer⟩ := h.exists_answers (hy List.mem_cons_self)
    have houtcome := hanswer.outcome_of_objective rfl
    have hcall : f.call y.point u = (value y.point, u) := hvalue y.point u
    rw [hcall] at houtcome
    cases hv : value y.point with
    | error e =>
      rw [hv] at houtcome
      cases houtcome
    | ok v =>
      rw [hv] at houtcome
      exact congrArg Except.ok (Except.ok.inj houtcome).symm
  constraint := by
    intro i g value hg hvalue
    have hi : i < y.constraints.length := hlength ▸ (List.getElem?_eq_some_iff.mp hg).1
    have hget : y.constraints[i]? = some y.constraints[i] := List.getElem?_eq_getElem hi
    have hmem := hy (List.mem_cons_of_mem _ (mem_constraintCalls hget))
    obtain ⟨u, u', hanswer⟩ := h.exists_answers hmem
    have houtcome := hanswer.outcome_of_constraint rfl hg
    have hcall : g.evaluate y.point u = (value y.point, u) := hvalue y.point u
    rw [hcall] at houtcome
    exact ⟨y.constraints[i], hget, houtcome.symm⟩

end NelderMead
