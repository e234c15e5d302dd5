import NelderMead.Proofs.History
import NelderMead.Proofs.Requests
import NelderMead.Proofs.Shape

/-!
# How computations end

A search ends in one of three ways.  It returns, and then all its evaluations were whole.  Or an
evaluation was interrupted by a function that failed: then the failed call is the last of all, and
the cause names the function and keeps what it reported.  Or there was no room for the trace, which
is found after whole evaluations only.  No other fault can end it as long as everything has its
shape.

* `Interrupted` — the calls of an interrupted evaluation, with the cause.
* `Ends` — the three ways; **`Ends.bind`** puts computations together.
* `ends_evaluate`, `ends_iterate` and their neighbours — how the parts of a search end.
* `search_eq` — a search evaluates its first simplex and goes on; where there is room, it is
  `Search.explore` with a report behind it.
* **`Search.Visits.shaped`** — every state that a search visits has its shape.
* **`ends_search`**, `Problem.Accepts.ends` — how a search ends, and how an accepted request does.
-/

namespace NelderMead

variable {σ : Type}

/-! ## Interrupted evaluations -/

/-- **The calls of an interrupted evaluation** of `m` constraints in dimension `n`, with the cause.
All of them are at one point, and only the last one failed. -/
inductive Interrupted (n m : ℕ) : List Call → SolverError → Prop
  | objective (x : Point) (dimension : x.length = n) (source : EvalError) :
      Interrupted n m [⟨.objective, x, .error (.error source)⟩] (.functionEvaluation source)
  | constraint (y : Sample) (dimension : y.point.length = n) (before : y.constraints.length < m)
      (source : EvalError) :
      Interrupted n m
        (y.calls ++ [⟨.constraint y.constraints.length, y.point, .error (.error source)⟩])
        (.constraintEvaluation y.constraints.length source)

/-! ## Endings -/

variable {p : PenaltyFunction σ} {n : ℕ} {room : Prop} {α β : Type} {Q : α → Prop} {R : β → Prop}
  {j j' : Journal σ}

/-- **How a computation ends** that begins with the journal `j`: its outcome and its journal.  What
it returns has the property `Q`, and it faults only where there is no `room`. -/
inductive Ends (p : PenaltyFunction σ) (n : ℕ) (room : Prop) (Q : α → Prop) (j : Journal σ) :
    Except (Failure SolverError) α × Journal σ → Prop
  | returned {a : α} {j' : Journal σ} {ys : List Sample} (value : Q a)
      (whole : ∀ y ∈ ys, y.Shaped n p.constraintCount)
      (grows : j.Grows p j' (ys.flatMap Sample.calls)) : Ends p n room Q j (.ok a, j')
  | interrupted {e : SolverError} {j' : Journal σ} {ys : List Sample} {cs : List Call}
      (whole : ∀ y ∈ ys, y.Shaped n p.constraintCount)
      (interrupted : Interrupted n p.constraintCount cs e)
      (grows : j.Grows p j' (ys.flatMap Sample.calls ++ cs)) :
      Ends p n room Q j (.error (.error e), j')
  | noRoom {f : Fault} {j' : Journal σ} {ys : List Sample} (full : ¬room)
      (whole : ∀ y ∈ ys, y.Shaped n p.constraintCount)
      (grows : j.Grows p j' (ys.flatMap Sample.calls)) : Ends p n room Q j (.error (.fault f), j')

namespace Ends

/-- Whole evaluations may come first. -/
lemma after {out : Except (Failure SolverError) α × Journal σ} {ys : List Sample}
    (whole : ∀ y ∈ ys, y.Shaped n p.constraintCount)
    (grows : j.Grows p j' (ys.flatMap Sample.calls)) (h : Ends p n room Q j' out) :
    Ends p n room Q j out := by
  cases h with
  | @returned a j'' zs value whole' grows' =>
    have hgrows := grows.trans grows'
    rw [← List.flatMap_append] at hgrows
    exact .returned value (List.forall_mem_append.mpr ⟨whole, whole'⟩) hgrows
  | @interrupted e j'' zs cs whole' interrupted grows' =>
    have hgrows := grows.trans grows'
    rw [← List.append_assoc, ← List.flatMap_append] at hgrows
    exact .interrupted (List.forall_mem_append.mpr ⟨whole, whole'⟩) interrupted hgrows
  | @noRoom f j'' zs full whole' grows' =>
    have hgrows := grows.trans grows'
    rw [← List.flatMap_append] at hgrows
    exact .noRoom full (List.forall_mem_append.mpr ⟨whole, whole'⟩) hgrows

/-- **Computations put together.**  The second goes on where the first returned. -/
theorem bind {r : Run σ SolverError α} {f : α → Run σ SolverError β}
    (h : Ends p n room Q j (r.exec j)) (next : ∀ a j', Q a → Ends p n room R j' ((f a).exec j')) :
    Ends p n room R j ((r >>= f).exec j) := by
  rw [Run.exec_bind]
  generalize r.exec j = out at h
  cases h with
  | returned value whole grows => exact (next _ _ value).after whole grows
  | interrupted whole interrupted grows => exact .interrupted whole interrupted grows
  | noRoom full whole grows => exact .noRoom full whole grows

lemma pure {a : α} (h : Q a) : Ends p n room Q j ((Pure.pure a : Run σ SolverError α).exec j) :=
  .returned h (List.forall_mem_nil _) (.refl p j)

lemma check {c : Except Fault α} {a : α} (hc : c = .ok a) (h : Q a) :
    Ends p n room Q j ((Run.check c : Run σ SolverError α).exec j) := by
  rw [hc]
  exact pure h

lemma tell (e : Event) :
    Ends p n room (fun _ => True) j ((Run.tell e : Run σ SolverError Unit).exec j) :=
  .returned trivial (List.forall_mem_nil _) ⟨(List.append_nil _).symm, .nil _⟩

/-- Calls are never taken back. -/
lemma prefix_calls {out : Except (Failure SolverError) α × Journal σ} (h : Ends p n room Q j out) :
    j.calls.toList <+: out.2.calls.toList := by
  cases h with
  | returned value whole grows | interrupted whole interrupted grows | noRoom full whole grows =>
    rw [grows.calls]
    exact List.prefix_append _ _

end Ends

/-! ## One evaluation -/

/-- One call of a function that does not fault, in the journal. -/
lemma consult_cases {t : Target} {x : Point}
    {ask : Point → StateM σ (Except (Failure EvalError) Float)}
    (rename : EvalError → SolverError)
    (hanswers : Answers p.objective p.constraints j.world ⟨t, x, (ask x j.world).1⟩
      (ask x j.world).2)
    (hcases : (∃ v, (ask x j.world).1 = .ok v) ∨ ∃ e, (ask x j.world).1 = .error (.error e)) :
    ∃ j', (∃ v, ((Run.consult t x ask).mapError rename).exec j = (.ok v, j') ∧
        j.Grows p j' [⟨t, x, .ok v⟩]) ∨
      ∃ e, ((Run.consult t x ask).mapError rename).exec j = (.error (.error (rename e)), j') ∧
        j.Grows p j' [⟨t, x, .error (.error e)⟩] := by
  rw [Run.exec_mapError, Run.exec_consult]
  generalize ask x j.world = out at hanswers hcases ⊢
  obtain ⟨outcome, world⟩ := out
  rcases hcases with ⟨v, hv⟩ | ⟨e, he⟩
  · obtain rfl : outcome = .ok v := hv
    exact ⟨_, Or.inl ⟨v, rfl, Array.toList_push, .singleton hanswers⟩⟩
  · obtain rfl : outcome = .error (.error e) := he
    exact ⟨_, Or.inr ⟨e, rfl, Array.toList_push, .singleton hanswers⟩⟩

lemma objectiveAt_cases (p : PenaltyFunction σ) (x : Point) (j : Journal σ) :
    ∃ j', (∃ v, (p.objectiveAt x).exec j = (.ok v, j') ∧ j.Grows p j' [⟨.objective, x, .ok v⟩]) ∨
      ∃ e, (p.objectiveAt x).exec j = (.error (.error (.functionEvaluation e)), j') ∧
        j.Grows p j' [⟨.objective, x, .error (.error e)⟩] := by
  refine consult_cases _ (.objective x) ?_
  show (∃ v, (p.objective.call x j.world).1.mapError Failure.error = .ok v) ∨
    ∃ e, (p.objective.call x j.world).1.mapError Failure.error = .error (.error e)
  cases (p.objective.call x j.world).1 with
  | error e => exact Or.inr ⟨e, rfl⟩
  | ok v => exact Or.inl ⟨v, rfl⟩

/-- Constraints from number `i` on, up to the first that fails. -/
lemma constraintsFrom_cases {x : Point} {i : ℕ} {cs : List (Constraint σ)}
    (hlisted : p.constraints.drop i = cs) (hdim : ∀ c ∈ cs, Agrees x.length c.dimension)
    (j : Journal σ) :
    ∃ j' gs, ((PenaltyFunction.constraintsFrom x i cs).exec j = (.ok gs, j') ∧
        gs.length = cs.length ∧ j.Grows p j' (constraintCalls x i gs)) ∨
      ∃ e, (PenaltyFunction.constraintsFrom x i cs).exec j =
          (.error (.error (.constraintEvaluation (i + gs.length) e)), j') ∧
        gs.length < cs.length ∧ j.Grows p j'
          (constraintCalls x i gs ++ [⟨.constraint (i + gs.length), x, .error (.error e)⟩]) := by
  induction cs generalizing i j with
  | nil => exact ⟨j, [], Or.inl ⟨rfl, rfl, .refl p j⟩⟩
  | cons c cs ih =>
    obtain ⟨hc, hcs⟩ := List.forall_mem_cons.mp hdim
    have hfirst : p.constraints[i]? = some c := by
      rw [← List.head?_drop, hlisted, List.head?_cons]
    have hrest : p.constraints.drop (i + 1) = cs := by
      rw [← List.tail_drop, hlisted, List.tail_cons]
    obtain ⟨j₁, ⟨g, hg, hgrows⟩ | ⟨e, he, hgrows⟩⟩ := consult_cases
      (.constraintEvaluation i) (.constraint x hfirst) (Constraint.evaluate_cases hc j.world)
    · obtain ⟨j₂, gs, ⟨hgs, hlength, hgrows'⟩ | ⟨e, he, hlt, hgrows'⟩⟩ := ih hrest hcs j₁
      · refine ⟨j₂, g :: gs, Or.inl ⟨?_, congrArg (· + 1) hlength, hgrows.trans hgrows'⟩⟩
        exact Run.exec_bind_eq_ok.mpr ⟨g, j₁, hg, Run.exec_bind_eq_ok.mpr ⟨gs, j₂, hgs, rfl⟩⟩
      · have hnumber : i + (g :: gs).length = i + 1 + gs.length := by
          rw [List.length_cons]
          omega
        refine ⟨j₂, g :: gs, Or.inr ⟨e, ?_, Nat.succ_lt_succ hlt, ?_⟩⟩
        · rw [hnumber]
          exact Run.exec_bind_eq_error.mpr (Or.inr ⟨g, j₁, hg,
            Run.exec_bind_eq_error.mpr (Or.inl he)⟩)
        · rw [hnumber]
          exact hgrows.trans hgrows'
    · refine ⟨j₁, [], Or.inr ⟨e, ?_, Nat.succ_pos _, hgrows⟩⟩
      exact Run.exec_bind_eq_error.mpr (Or.inl he)

/-- **How one evaluation ends.** -/
theorem ends_evaluate {x : Point} (hdim : ∀ c ∈ p.constraints, Agrees n c.dimension)
    (hx : x.length = n) (j : Journal σ) :
    Ends p n room (fun v => v.sample.Shaped n p.constraintCount) j
      ((Vertex.evaluate p x).exec j) := by
  obtain ⟨j₁, ⟨f, hf, hgrows⟩ | ⟨e, he, hgrows⟩⟩ := objectiveAt_cases p x j
  · obtain ⟨j₂, gs, ⟨hgs, hlength, hgrows'⟩ | ⟨e, he, hlt, hgrows'⟩⟩ :=
      constraintsFrom_cases List.drop_zero (hx ▸ hdim) j₁
    · have hfound : (p.evaluate x).exec j = (.ok (p.combine f gs), j₂) :=
        Run.exec_bind_eq_ok.mpr ⟨f, j₁, hf, Run.exec_bind_eq_ok.mpr ⟨gs, j₂, hgs, rfl⟩⟩
      have hexec : (Vertex.evaluate p x).exec j = (.ok ⟨x, p.combine f gs⟩, j₂) :=
        Run.exec_bind_eq_ok.mpr ⟨_, j₂, hfound, rfl⟩
      rw [hexec]
      have hshaped : Sample.Shaped n p.constraintCount ⟨x, f, gs⟩ := ⟨hx, hlength⟩
      refine .returned hshaped (List.forall_mem_singleton.mpr hshaped) ?_
      simpa [Sample.calls] using hgrows.trans hgrows'
    · rw [Nat.zero_add] at he hgrows'
      have hfound : (p.evaluate x).exec j =
          (.error (.error (.constraintEvaluation gs.length e)), j₂) :=
        Run.exec_bind_eq_error.mpr (Or.inr ⟨f, j₁, hf, Run.exec_bind_eq_error.mpr (Or.inl he)⟩)
      have hexec : (Vertex.evaluate p x).exec j =
          (.error (.error (.constraintEvaluation gs.length e)), j₂) :=
        Run.exec_bind_eq_error.mpr (Or.inl hfound)
      rw [hexec]
      refine .interrupted (List.forall_mem_nil _) (.constraint ⟨x, f, gs⟩ hx hlt e) ?_
      simpa [Sample.calls] using hgrows.trans hgrows'
  · have hexec : (Vertex.evaluate p x).exec j =
        (.error (.error (.functionEvaluation e)), j₁) :=
      Run.exec_bind_eq_error.mpr (Or.inl (Run.exec_bind_eq_error.mpr (Or.inl he)))
    rw [hexec]
    exact .interrupted (List.forall_mem_nil _) (.objective x hx e) hgrows

/-! ## Before and after the iterations -/

/-- Reads the result off the last state, and tells that the run is finished. -/
def Search.report (p : PenaltyFunction σ) (n : ℕ) (s : Search) :
    Run σ SolverError SearchResult := do
  let result ← Run.check (SearchResult.ofTrace n p.constraintCount s.evaluations s.trace)
  let fmin ← Run.check result.fmin
  Run.tell (.finished result.iterations result.evaluations fmin)
  return result

/-- Sets room for the trace aside, with the first simplex at hand. -/
def Search.setUp (p : PenaltyFunction σ) (n : ℕ) (points : List Point) (maxIter : ℕ)
    (simplex : Simplex) : Run σ SolverError Search := do
  let trace ← Run.check (Trace.reserve n p.constraintCount maxIter)
  return { simplex, evaluations := points.length, trace }

/-- All that a search does after it evaluated the first simplex. -/
def Search.goOn (p : PenaltyFunction σ) (n : ℕ) (points : List Point) (maxIter : ℕ)
    (simplex : Simplex) : Run σ SolverError SearchResult := do
  let s ← setUp p n points maxIter simplex
  let last ← iterates p n maxIter s
  report p n last

/-- A search up to its last state, with room for the trace taken for granted. -/
def Search.explore (p : PenaltyFunction σ) (n : ℕ) (points : List Point) (maxIter : ℕ) :
    Run σ SolverError Search := do
  let simplex ← points.mapM (Vertex.evaluate p)
  iterates p n maxIter { simplex, evaluations := points.length, trace := {} }

/-- A search evaluates the first simplex and goes on. -/
lemma search_eq (p : PenaltyFunction σ) (n : ℕ) (points : List Point) (maxIter : ℕ) :
    search p n points maxIter =
      points.mapM (Vertex.evaluate p) >>= Search.goOn p n points maxIter :=
  bind_assoc _ _ _

namespace Search

variable {points : List Point} {maxIter : ℕ}

/-- Where there is room for the trace, a search goes on with its iterations. -/
lemma goOn_of_fits (h : Trace.Fits n p.constraintCount maxIter) (vs : Simplex) :
    goOn p n points maxIter vs =
      iterates p n maxIter ⟨vs, points.length, {}⟩ >>= report p n := by
  rw [goOn, setUp, Trace.reserve_of_fits h]
  rfl

/-- So it explores and reports. -/
lemma search_of_fits (h : Trace.Fits n p.constraintCount maxIter) :
    search p n points maxIter = explore p n points maxIter >>= report p n := by
  rw [search_eq, explore, bind_assoc]
  exact congrArg (points.mapM (Vertex.evaluate p) >>= ·) (funext (goOn_of_fits h))

/-- Where there is none, it ends in a fault. -/
lemma goOn_of_not_fits (h : ¬Trace.Fits n p.constraintCount maxIter) (points : List Point)
    (vs : Simplex) (j : Journal σ) :
    (goOn p n points maxIter vs).exec j =
      (.error (.fault (.tooManyEntries (Trace.widestColumn n p.constraintCount maxIter))), j) := by
  rw [goOn, setUp, Trace.reserve, if_neg h]
  rfl

/-- A state of the right shape has a result, and reading it off writes one event down. -/
lemma exists_exec_report {s : Search} (hs : s.Shaped n p.constraintCount) (j : Journal σ) :
    ∃ r e, SearchResult.ofTrace n p.constraintCount s.evaluations s.trace = .ok r ∧
      (report p n s).exec j = (.ok r, { j with events := j.events.push e }) := by
  obtain ⟨r, hr, best, hbest⟩ := hs.exists_result s.evaluations
  refine ⟨r, .finished r.iterations r.evaluations best, hr, ?_⟩
  rw [report, hr]
  simp only [Run.exec_bind, Run.exec_check_ok, hbest, Run.exec_tell, Run.exec_pure]

/-- A search ends with the report on the state after its last iteration. -/
lemma Visits.exec_search {j₀ : Journal σ} {s : Search}
    (h : Visits p n points maxIter j₀ maxIter s j) :
    (search p n points maxIter).exec j₀ = (report p n s).exec j := by
  show (first p n points maxIter >>= fun s => iterates p n maxIter s >>= report p n).exec j₀ = _
  rw [← bind_assoc, Run.exec_bind, h.2]

end Search

/-- How the search for room ends. -/
lemma ends_setUp {points : List Point} (hlength : points.length = n + 1) {vs : Simplex}
    (hvs : vs.length = points.length ∧ ∀ v ∈ vs, v.sample.Shaped n p.constraintCount)
    (maxIter : ℕ) (j : Journal σ) :
    Ends p n (Trace.Fits n p.constraintCount maxIter) (fun s => s.Shaped n p.constraintCount) j
      ((Search.setUp p n points maxIter vs).exec j) := by
  obtain ⟨hvs, hshaped⟩ := hvs
  refine Ends.bind (Q := fun t => t = {}) ?_ ?_
  · rw [Trace.reserve]
    split_ifs with hfits
    · exact .pure rfl
    · exact .noRoom hfits (List.forall_mem_nil _) (.refl p j)
  · rintro _ j₂ rfl
    exact .pure ⟨hvs.trans hlength, hshaped, List.forall_mem_nil _⟩

lemma ends_report {s : Search} (hs : s.Shaped n p.constraintCount) (j : Journal σ) :
    Ends p n room (fun _ => True) j ((Search.report p n s).exec j) := by
  obtain ⟨r, hr, best, hbest⟩ := hs.exists_result s.evaluations
  refine Ends.bind (Q := fun r' => r' = r) (.check hr rfl) ?_
  rintro _ j₁ rfl
  refine Ends.bind (Q := fun _ => True) (.check hbest trivial) ?_
  intro fmin j₂ _
  refine (Ends.tell _).bind ?_
  intro _ j₃ _
  exact .pure trivial

/-! ## Moves and iterations -/

section Search

variable (hdim : ∀ c ∈ p.constraints, Agrees n c.dimension)

include hdim

lemma ends_trial {t : Standing} {target : Vertex} (hcentroid : t.centroid.length = n)
    (htarget : target.point.length = n) (k : Float) (j : Journal σ) :
    Ends p n room (fun v => v.sample.Shaped n p.constraintCount) j
      ((t.trial p target k).exec j) := by
  obtain ⟨z, hz⟩ := Point.exists_toward (hcentroid.trans htarget.symm) k
  have hlength : z.length = n := (Point.length_toward hz).trans hcentroid
  refine Ends.bind (Q := fun z => z.length = n) (.check hz hlength) ?_
  intro z j' hz'
  exact ends_evaluate hdim hz' j'

/-- **How the choice of a move ends.** -/
theorem ends_choose {t : Standing} (hcentroid : t.centroid.length = n)
    (hworst : t.worst.point.length = n) (i : ℕ) (j : Journal σ) :
    Ends p n room (fun m => ∀ v ∈ m.newcomer, v.sample.Shaped n p.constraintCount) j
      ((Move.choose p i t).exec j) := by
  have htaken : ∀ {v : Vertex}, v.sample.Shaped n p.constraintCount →
      ∀ u ∈ some v, u.sample.Shaped n p.constraintCount := by
    rintro v hv u ⟨⟩
    exact hv
  refine (ends_trial hdim hcentroid hworst _ j).bind ?_
  intro r j₁ hr
  split_ifs
  · exact .pure (htaken hr)
  · refine (ends_trial hdim hcentroid hr.point _ j₁).bind ?_
    intro e j₂ he
    split_ifs
    · exact .pure (htaken he)
    · exact .pure (htaken hr)
  · refine (ends_trial hdim hcentroid hworst _ j₁).bind ?_
    intro c j₂ hc
    split_ifs
    · exact .pure (htaken hc)
    · exact .pure fun v hv => nomatch hv

/-- **How an iteration ends.** -/
theorem ends_iterate (hn : 0 < n) {s : Search} (hs : s.Shaped n p.constraintCount)
    (j : Journal σ) :
    Ends p n room (fun s' => s'.Shaped n p.constraintCount) j ((Search.iterate p n s).exec j) := by
  obtain ⟨t, ht⟩ := hs.exists_standing
  have hd := Simplex.describes_of_standing hn hs.length_simplex ht
  have hworst : t.worst.point.length = n := (hs.vertex _ hd.worst_mem).point
  refine Ends.bind (Q := fun t' => t' = t) (.check ht rfl) ?_
  rintro _ j₁ rfl
  refine (ends_choose hdim hd.length_centroid hworst _ j₁).bind ?_
  intro m j₂ hm
  refine (Ends.tell m.event).bind ?_
  intro _ j₃ _
  exact .pure (hs.next hd hm)

lemma ends_iterates (hn : 0 < n) (k : ℕ) {s : Search} (hs : s.Shaped n p.constraintCount)
    (j : Journal σ) :
    Ends p n room (fun s' => s'.Shaped n p.constraintCount) j
      ((Search.iterates p n k s).exec j) := by
  induction k generalizing s j with
  | zero => exact .pure hs
  | succ k ih => exact (ends_iterate hdim hn hs j).bind fun s' j' hs' => ih hs' j'

/-! ## Searches -/

lemma ends_mapM_evaluate {points : List Point} (hpoints : ∀ x ∈ points, x.length = n)
    (j : Journal σ) :
    Ends p n room (fun vs => vs.length = points.length ∧
      ∀ v ∈ vs, v.sample.Shaped n p.constraintCount) j
      ((points.mapM (Vertex.evaluate p)).exec j) := by
  induction points generalizing j with
  | nil =>
    rw [List.mapM_nil]
    exact .pure ⟨rfl, List.forall_mem_nil _⟩
  | cons x points ih =>
    obtain ⟨hx, hrest⟩ := List.forall_mem_cons.mp hpoints
    rw [List.mapM_cons]
    refine (ends_evaluate hdim hx j).bind ?_
    intro v j₁ hv
    refine (ih hrest j₁).bind ?_
    rintro vs j₂ ⟨hlength, hvs⟩
    exact .pure ⟨congrArg (· + 1) hlength, List.forall_mem_cons.mpr ⟨hv, hvs⟩⟩

/-- The last state of a search has the right shape. -/
lemma ends_explore (hn : 0 < n) {points : List Point} (hpoints : ∀ x ∈ points, x.length = n)
    (hlength : points.length = n + 1) (maxIter : ℕ) (j : Journal σ) :
    Ends p n room (fun s => s.Shaped n p.constraintCount) j
      ((Search.explore p n points maxIter).exec j) := by
  refine (ends_mapM_evaluate hdim hpoints j).bind ?_
  rintro vs j₁ ⟨hvs, hshaped⟩
  exact ends_iterates hdim hn maxIter ⟨hvs.trans hlength, hshaped, List.forall_mem_nil _⟩ j₁

/-- **Every visited state has its shape.** -/
theorem Search.Visits.shaped (hn : 0 < n) {points : List Point}
    (hpoints : ∀ x ∈ points, x.length = n) (hlength : points.length = n + 1) {maxIter k : ℕ}
    {j₀ : Journal σ} {s : Search} (h : Visits p n points maxIter j₀ k s j) :
    s.Shaped n p.constraintCount := by
  have hends : Ends p n (Trace.Fits n p.constraintCount maxIter)
      (fun s => s.Shaped n p.constraintCount) j₀
      ((Search.first p n points maxIter >>= Search.iterates p n k).exec j₀) := by
    refine Ends.bind (Q := fun s => s.Shaped n p.constraintCount) ?_
      fun s j₁ hs => ends_iterates hdim hn k hs j₁
    exact (ends_mapM_evaluate hdim hpoints j₀).bind fun vs j₁ hvs =>
      ends_setUp hlength hvs maxIter j₁
  rw [h.2] at hends
  cases hends with
  | returned shaped _ _ => exact shaped

/-- How a search goes on after its first simplex. -/
lemma ends_goOn (hn : 0 < n) {points : List Point} (hlength : points.length = n + 1) {vs : Simplex}
    (hvs : vs.length = points.length ∧ ∀ v ∈ vs, v.sample.Shaped n p.constraintCount)
    (maxIter : ℕ) (j : Journal σ) :
    Ends p n (Trace.Fits n p.constraintCount maxIter) (fun _ => True) j
      ((Search.goOn p n points maxIter vs).exec j) := by
  refine (ends_setUp hlength hvs maxIter j).bind ?_
  intro s j₁ hs
  refine (ends_iterates hdim hn maxIter hs j₁).bind ?_
  intro t j₂ ht
  exact ends_report ht j₂

/-- **How a search ends.** -/
theorem ends_search (hn : 0 < n) {points : List Point} (hpoints : ∀ x ∈ points, x.length = n)
    (hlength : points.length = n + 1) (maxIter : ℕ) (j : Journal σ) :
    Ends p n (Trace.Fits n p.constraintCount maxIter) (fun _ => True) j
      ((search p n points maxIter).exec j) := by
  rw [search_eq]
  refine (ends_mapM_evaluate hdim hpoints j).bind ?_
  intro vs j₁ hvs
  exact ends_goOn hdim hn hlength hvs maxIter j₁

end Search

/-- **How an accepted request ends.** -/
theorem Problem.Accepts.ends {q : Problem σ} {o : Options} {start : Start}
    (h : q.Accepts o start) (maxIter : ℕ) (w : σ) :
    ∃ j₀ : Journal σ, j₀.world = w ∧ j₀.calls = #[] ∧
      Ends h.penalty q.dimension (Trace.Fits q.dimension q.constraintCount maxIter)
        (fun _ => True) j₀ ((q.run o maxIter start).execIn w) := by
  obtain ⟨j₀, hworld, hcalls, hexec⟩ := h.exec_run maxIter w
  refine ⟨j₀, hworld, hcalls, ?_⟩
  rw [hexec]
  exact ends_search q.agrees_constraint q.dimension_pos h.length_of_mem_points h.length_points
    maxIter j₀

end NelderMead
