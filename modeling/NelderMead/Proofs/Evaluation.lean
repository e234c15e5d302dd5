import NelderMead.Simplex
import Mathlib.Data.Nat.Notation
import Mathlib.Tactic.Lemma

/-!
# Evaluations in the journal

An evaluation that succeeds leaves a block of calls in the journal: the objective, then each
constraint in order, all at one point.  A log that consists of such blocks can be read back.

* `Run.exec_bind_eq_ok` and its neighbours — how a computation that succeeds is put together.
* `Sample.calls`, `samplesOf` — the block of a sample, and the samples that a log shows;
  **`samplesOf_flatMap`** says that the second undoes the first.
* `Evaluated` — that some vertices were evaluated one after the other; **`evaluated_of_exec`** says
  so of one evaluation and `evaluated_of_mapM` of a list of them.
-/

namespace NelderMead

variable {σ : Type}

/-! ## Computations that succeed -/

namespace Run

variable {ε ε' α β : Type}

lemma exec_bind_eq_ok {r : Run σ ε α} {f : α → Run σ ε β} {j j'' : Journal σ} {b : β} :
    (r >>= f).exec j = (.ok b, j'') ↔
      ∃ a j', r.exec j = (.ok a, j') ∧ (f a).exec j' = (.ok b, j'') := by
  rw [exec_bind]
  rcases h : r.exec j with ⟨e | a, j'⟩
  · simp
  · simp only [Prod.mk.injEq, Except.ok.injEq]
    constructor
    · intro hb
      exact ⟨a, j', ⟨rfl, rfl⟩, hb⟩
    · rintro ⟨_, _, ⟨rfl, rfl⟩, hb⟩
      exact hb

lemma exec_bind_eq_error {r : Run σ ε α} {f : α → Run σ ε β} {j j'' : Journal σ}
    {e : Failure ε} :
    (r >>= f).exec j = (.error e, j'') ↔ r.exec j = (.error e, j'') ∨
      ∃ a j', r.exec j = (.ok a, j') ∧ (f a).exec j' = (.error e, j'') := by
  rw [exec_bind]
  rcases h : r.exec j with ⟨e' | a, j'⟩
  · simp
  · simp only [Prod.mk.injEq, reduceCtorEq, false_and, Except.ok.injEq, false_or]
    constructor
    · intro he
      exact ⟨a, j', ⟨rfl, rfl⟩, he⟩
    · rintro ⟨_, _, ⟨rfl, rfl⟩, he⟩
      exact he

lemma exec_pure_eq_ok {a b : α} {j j' : Journal σ} :
    (pure a : Run σ ε α).exec j = (.ok b, j') ↔ a = b ∧ j = j' := by
  rw [exec_pure, Prod.mk.injEq, Except.ok.injEq]

lemma exec_check_eq_ok {c : Except Fault α} {a : α} {j j' : Journal σ} :
    (check c : Run σ ε α).exec j = (.ok a, j') ↔ c = .ok a ∧ j = j' := by
  cases c with
  | error f => simp
  | ok b => simp

lemma exec_tell_eq_ok {e : Event} {u : Unit} {j j' : Journal σ} :
    (tell e : Run σ ε Unit).exec j = (.ok u, j') ↔
      { j with events := j.events.push e } = j' := by
  simp

lemma exec_mapError_eq_ok {rename : ε → ε'} {r : Run σ ε α} {a : α} {j j' : Journal σ} :
    (mapError rename r).exec j = (.ok a, j') ↔ r.exec j = (.ok a, j') := by
  rw [exec_mapError]
  rcases r.exec j with ⟨e | b, j₁⟩
  · exact iff_of_false (fun h => nomatch h) fun h => nomatch h
  · show (Except.ok b, j₁) = (Except.ok a, j') ↔ _
    simp

lemma calls_of_consult {target : Target} {x : Point}
    {f : Point → StateM σ (Except (Failure EvalError) Float)} {v : Float} {j j' : Journal σ}
    (h : (consult target x f).exec j = (.ok v, j')) :
    j'.calls.toList = j.calls.toList ++ [⟨target, x, .ok v⟩] ∧ j'.events = j.events := by
  rw [exec_consult, Prod.mk.injEq] at h
  obtain ⟨hv, rfl⟩ := h
  rw [hv, Array.toList_push]
  exact ⟨rfl, rfl⟩

end Run

/-! ## Blocks of calls -/

/-- The calls of the constraints from number `i` on, with the values they returned. -/
def constraintCalls (x : Point) (i : ℕ) (gs : Point) : List Call :=
  (gs.zipIdx i).map fun gi => ⟨.constraint gi.2, x, .ok gi.1⟩

/-- **The calls of one evaluation**: the objective, then the constraints in order. -/
def Sample.calls (s : Sample) : List Call :=
  ⟨.objective, s.point, .ok s.objective⟩ :: constraintCalls s.point 0 s.constraints

/-- The values of the constraints with which a log begins. -/
def leadingConstraints : List Call → Point
  | ⟨.constraint _, _, .ok g⟩ :: cs => g :: leadingConstraints cs
  | _ => []

/-- **The samples that a log shows.**  Each begins with a call of the objective. -/
def samplesOf : List Call → List Sample
  | [] => []
  | ⟨.objective, x, .ok f⟩ :: cs => ⟨x, f, leadingConstraints cs⟩ :: samplesOf cs
  | _ :: cs => samplesOf cs

/-- The samples of a run so far. -/
def Journal.samples (j : Journal σ) : List Sample := samplesOf j.calls.toList

lemma constraintCalls_cons (x : Point) (i : ℕ) (g : Float) (gs : Point) :
    constraintCalls x i (g :: gs) = ⟨.constraint i, x, .ok g⟩ :: constraintCalls x (i + 1) gs := rfl

lemma leadingConstraints_append (x : Point) (gs : Point) (cs : List Call) (i : ℕ) :
    leadingConstraints (constraintCalls x i gs ++ cs) = gs ++ leadingConstraints cs := by
  induction gs generalizing i with
  | nil => rfl
  | cons g gs ih =>
    rw [constraintCalls_cons, List.cons_append, leadingConstraints, ih, List.cons_append]

lemma samplesOf_append (x : Point) (gs : Point) (cs : List Call) (i : ℕ) :
    samplesOf (constraintCalls x i gs ++ cs) = samplesOf cs := by
  induction gs generalizing i with
  | nil => rfl
  | cons g gs ih =>
    rw [constraintCalls_cons, List.cons_append]
    exact ih (i + 1)

/-- **Samples are read back from their calls.** -/
theorem samplesOf_flatMap (ss : List Sample) : samplesOf (ss.flatMap Sample.calls) = ss := by
  induction ss with
  | nil => rfl
  | cons s ss ih =>
    have hlead : leadingConstraints (ss.flatMap Sample.calls) = [] := by
      cases ss <;> rfl
    rw [List.flatMap_cons, Sample.calls, List.cons_append, samplesOf, leadingConstraints_append,
      samplesOf_append, hlead, List.append_nil, ih]

/-! ## Evaluated vertices -/

/-- The augmented value of a sample. -/
def PenaltyFunction.augmentedOf (p : PenaltyFunction σ) (y : Sample) : Float :=
  (p.combine y.objective y.constraints).augmented

/-- A vertex shows what the penalised objective makes of its values. -/
structure Vertex.Consistent (p : PenaltyFunction σ) (v : Vertex) : Prop where
  found : v.found = p.combine v.found.objective v.found.constraints
  length_constraints : v.found.constraints.length = p.constraintCount

lemma Vertex.Consistent.augmentedOf_sample {p : PenaltyFunction σ} {v : Vertex}
    (h : v.Consistent p) : p.augmentedOf v.sample = v.augmented :=
  (congrArg Evaluation.augmented h.found).symm

/-- **The vertices `vs` were evaluated one after the other**, which took the journal from `j` to
`j'`. -/
structure Evaluated (p : PenaltyFunction σ) (vs : List Vertex) (j j' : Journal σ) : Prop where
  consistent : ∀ v ∈ vs, v.Consistent p
  calls : j'.calls.toList = j.calls.toList ++ (vs.map Vertex.sample).flatMap Sample.calls
  events : j'.events = j.events

namespace Evaluated

variable {p : PenaltyFunction σ} {vs ws : List Vertex} {j j' j'' : Journal σ}

lemma nil (p : PenaltyFunction σ) (j : Journal σ) : Evaluated p [] j j :=
  ⟨List.forall_mem_nil _, (List.append_nil _).symm, rfl⟩

lemma append (h : Evaluated p vs j j') (h' : Evaluated p ws j' j'') :
    Evaluated p (vs ++ ws) j j'' where
  consistent := List.forall_mem_append.mpr ⟨h.consistent, h'.consistent⟩
  calls := by
    rw [h'.calls, h.calls, List.append_assoc, List.map_append, List.flatMap_append]
  events := h'.events.trans h.events

end Evaluated

variable {p : PenaltyFunction σ} {j j' : Journal σ}

lemma calls_of_constraintsFrom {x : Point} {cs : List (Constraint σ)} {gs : Point} {i : ℕ}
    (h : (PenaltyFunction.constraintsFrom x i cs).exec j = (.ok gs, j')) :
    gs.length = cs.length ∧ j'.calls.toList = j.calls.toList ++ constraintCalls x i gs ∧
      j'.events = j.events := by
  induction cs generalizing i j gs with
  | nil =>
    obtain ⟨rfl, rfl⟩ := Run.exec_pure_eq_ok.mp h
    exact ⟨rfl, (List.append_nil _).symm, rfl⟩
  | cons c cs ih =>
    obtain ⟨g, j₁, hg, h⟩ := Run.exec_bind_eq_ok.mp h
    obtain ⟨gs', j₂, hgs, h⟩ := Run.exec_bind_eq_ok.mp h
    obtain ⟨rfl, rfl⟩ := Run.exec_pure_eq_ok.mp h
    obtain ⟨hcall, hevents⟩ := Run.calls_of_consult (Run.exec_mapError_eq_ok.mp hg)
    obtain ⟨hlength, hcalls, hevents'⟩ := ih hgs
    refine ⟨congrArg (· + 1) hlength, ?_, hevents'.trans hevents⟩
    rw [hcalls, hcall, List.append_assoc, constraintCalls_cons, List.singleton_append]

/-- **An evaluation that succeeds** leaves one block of calls. -/
theorem evaluated_of_exec {x : Point} {v : Vertex}
    (h : (Vertex.evaluate p x).exec j = (.ok v, j')) : v.point = x ∧ Evaluated p [v] j j' := by
  obtain ⟨found, j₁, hfound, h⟩ := Run.exec_bind_eq_ok.mp h
  obtain ⟨rfl, rfl⟩ := Run.exec_pure_eq_ok.mp h
  obtain ⟨f, j₂, hf, h⟩ := Run.exec_bind_eq_ok.mp hfound
  obtain ⟨g, j₃, hg, h⟩ := Run.exec_bind_eq_ok.mp h
  obtain ⟨rfl, rfl⟩ := Run.exec_pure_eq_ok.mp h
  obtain ⟨hcall, hevents⟩ := Run.calls_of_consult (Run.exec_mapError_eq_ok.mp hf)
  obtain ⟨hlength, hcalls, hevents'⟩ := calls_of_constraintsFrom hg
  refine ⟨rfl, ?_, ?_, hevents'.trans hevents⟩
  · rintro v hv
    obtain rfl := List.mem_singleton.mp hv
    exact ⟨rfl, hlength⟩
  · rw [hcalls, hcall, List.append_assoc]
    exact congrArg _ (List.append_nil _).symm

/-- Points are evaluated in order. -/
theorem evaluated_of_mapM {points : List Point} {vs : List Vertex}
    (h : (points.mapM (Vertex.evaluate p)).exec j = (.ok vs, j')) :
    vs.map Vertex.point = points ∧ Evaluated p vs j j' := by
  induction points generalizing j vs with
  | nil =>
    rw [List.mapM_nil] at h
    obtain ⟨rfl, rfl⟩ := Run.exec_pure_eq_ok.mp h
    exact ⟨rfl, Evaluated.nil p j⟩
  | cons x points ih =>
    rw [List.mapM_cons] at h
    obtain ⟨v, j₁, hv, h⟩ := Run.exec_bind_eq_ok.mp h
    obtain ⟨ws, j₂, hws, h⟩ := Run.exec_bind_eq_ok.mp h
    obtain ⟨rfl, rfl⟩ := Run.exec_pure_eq_ok.mp h
    obtain ⟨rfl, hfirst⟩ := evaluated_of_exec hv
    obtain ⟨rfl, hrest⟩ := ih hws
    exact ⟨rfl, hfirst.append hrest⟩

end NelderMead
