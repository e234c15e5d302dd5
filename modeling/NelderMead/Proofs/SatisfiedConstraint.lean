import NelderMead.Proofs.Congruence
import NelderMead.Proofs.Coupling
import NelderMead.Proofs.EntryPoints

/-!
# A constraint that is always satisfied

A constraint that is satisfied at every point adds a zero to every penalty.  The zero may turn the
sign of a zero that was there, but no comparison sees that, so the search takes no notice: it
returns the same result up to the column of the constraint, or fails in the same way up to the
numbers of the constraints behind it.

There is one limit.  The constraint makes the rows of the trace wider, so a run can end for want of
room that would have had enough without it.

* `Call.without`, `Trace.Without`, `SearchResult.withoutConstraint` — logs, traces and results with
  the constraint `k` left out, and `SolverError.raise` — causes with one constraint more.
* `Problem.insertConstraint` — the problem with one constraint more.
* `coupled_constraintsFrom` — evaluations with the constraint and without it.
* `Mirror.ofSatisfied` — the searches correspond.
* `Unchanged`, **`Problem.unchanged`** — and so do the runs.
-/

namespace NelderMead

variable {σ : Type} {k n m : ℕ}

/-! ## One constraint less -/

/-- The target of a call when the constraint `k` is left out, unless it is the one. -/
def Target.without (k : ℕ) : Target → Option Target
  | objective => some objective
  | constraint i =>
    if i < k then some (constraint i) else if i = k then none else some (constraint (i - 1))

/-- The call when the constraint `k` is left out, unless it is a call of this one. -/
def Call.without (k : ℕ) (c : Call) : Option Call :=
  (c.target.without k).map fun target => { c with target }

/-- The sample without the value of the constraint `k`. -/
def Sample.without (k : ℕ) (y : Sample) : Sample :=
  { y with constraints := y.constraints.eraseIdx k }

/-- The row without the values of the constraint `k`. -/
def Row.without (k : ℕ) (r : Row) : Row :=
  { r with current := r.current.without k, best := r.best.without k }

/-- **The trace `t` is `t'` without the values of the constraint `k`.** -/
def Trace.Without (k : ℕ) (t t' : Trace) : Prop :=
  t.rows.toList = t'.rows.toList.map (Row.without k)

/-- The matrix without column `k`. -/
def Matrix.withoutColumn (k : ℕ) (a : Matrix) : Matrix where
  cols := if k < a.cols then a.cols - 1 else a.cols
  rows := a.rows.map (·.eraseIdx k)
  length_row := by
    intro row hrow
    obtain ⟨r, hr, rfl⟩ := List.mem_map.mp hrow
    rw [List.length_eraseIdx, a.length_row r hr]

/-- **The result without the columns of the constraint `k`.** -/
def SearchResult.withoutConstraint (k : ℕ) (r : SearchResult) : SearchResult :=
  { r with g := r.g.withoutColumn k, bestG := r.bestG.withoutColumn k }

/-- **The cause with one constraint more** in place `k`. -/
def SolverError.raise (k : ℕ) : SolverError → SolverError
  | constraintEvaluation i source => constraintEvaluation (if i < k then i else i + 1) source
  | e => e

lemma SolverError.raise_of_evalError? {e : SolverError} (h : e.evalError? = none) :
    e.raise k = e := by
  cases e <;> first | rfl | cases h

lemma Trace.Without.record {t t' : Trace} (h : Without k t t') {y y' : Sample}
    (hy : y = y'.without k) (evaluations : ℕ) :
    Without k (t.record y evaluations) (t'.record y' evaluations) := by
  have hlast : t.rows.back? = t'.rows.back?.map (Row.without k) := by
    rw [← Array.getLast?_toList, ← Array.getLast?_toList, h, List.getLast?_map]
  rw [Without, toList_rows_record, toList_rows_record, List.map_append, h, hlast, hy,
    better_map (Sample.without k) (Row.without k) (fun _ => rfl) fun _ => rfl]
  rfl

lemma Matrix.ofRows_withoutColumn {cols : ℕ} {rows : List Point} {a : Matrix} (hk : k < cols)
    (h : ofRows cols rows = .ok a) :
    ofRows (cols - 1) (rows.map (·.eraseIdx k)) = .ok (a.withoutColumn k) := by
  obtain ⟨rfl, rfl⟩ := rows_of_ofRows h
  have hcols : (a.withoutColumn k).cols = a.cols - 1 := if_pos hk
  rw [← hcols]
  exact ofRows_of_length (a.withoutColumn k).length_row

/-- **What is read off without a constraint** is the result without the constraint. -/
lemma SearchResult.ReadOff.without {r : SearchResult} {evaluations : ℕ} {rows : List Row}
    (hk : k < m + 1) (h : r.ReadOff n (m + 1) evaluations rows) :
    (r.withoutConstraint k).ReadOff n m evaluations (rows.map (Row.without k)) := by
  have hkept : ∀ {α : Type} {read : Row → α}, (∀ row, read (row.without k) = read row) →
      (rows.map (Row.without k)).map read = rows.map read := by
    intro α read hread
    rw [List.map_map]
    exact List.map_congr_left fun row _ => hread row
  have herased : ∀ {read : Row → Point} {a : Matrix},
      (∀ row, read (row.without k) = (read row).eraseIdx k) →
        Matrix.ofRows (m + 1) (rows.map read) = .ok a →
          Matrix.ofRows m ((rows.map (Row.without k)).map read) = .ok (a.withoutColumn k) := by
    intro read a hread ha
    rw [← Matrix.ofRows_withoutColumn hk ha, List.map_map, List.map_map, Nat.add_sub_cancel]
    exact congrArg _ (List.map_congr_left fun row _ => hread row)
  have hg := herased (fun _ => rfl) h.ofRows_g
  have hbestG := herased (fun _ => rfl) h.ofRows_bestG
  exact
    { evaluations_eq := h.evaluations_eq
      iterations_eq := h.iterations_eq.trans (List.length_map _).symm
      f := h.f.trans (hkept fun _ => rfl).symm
      g := (rows_of_ofRows hg).1
      x := h.x.trans (hkept fun _ => rfl).symm
      bestF := h.bestF.trans (hkept fun _ => rfl).symm
      bestG := (rows_of_ofRows hbestG).1
      bestX := h.bestX.trans (hkept fun _ => rfl).symm
      samplesAtIteration := h.samplesAtIteration.trans (hkept fun _ => rfl).symm
      ofRows_g := hg
      ofRows_x := by rw [hkept fun _ => rfl]; exact h.ofRows_x
      ofRows_bestG := hbestG
      ofRows_bestX := by rw [hkept fun _ => rfl]; exact h.ofRows_bestX }

/-! ## One constraint more -/

/-- **The functions ignore the world**: what they return at a point is the same in any. -/
structure Problem.IgnoresWorld (q : Problem σ) : Prop where
  objective : ∀ x w w', (q.objective.call x w).1 = (q.objective.call x w').1
  constraints : ∀ c ∈ q.constraints, ∀ x w w', (c.evaluate x w).1 = (c.evaluate x w').1

/-- **The constraint is satisfied** at every point of dimension `n`, in any world. -/
def Constraint.Satisfied (c : Constraint σ) (n : ℕ) : Prop :=
  ∀ x w, x.length = n → ∃ v, (c.evaluate x w).1 = .ok v ∧ v ≤ 0.0

/-- **The problem with one constraint more** in place `k`. -/
def Problem.insertConstraint (q : Problem σ) (k : ℕ) (c : Constraint σ)
    (hc : Agrees q.x0.length c.dimension) : Problem σ :=
  { q with
    constraints := q.constraints.insertIdx k c
    agrees_constraint := by
      intro d hd
      rcases List.eq_or_mem_of_mem_insertIdx hd with rfl | hd
      · exact hc
      · exact q.agrees_constraint d hd }

/-- **The log of `j` is that of `j'`** without the calls of the constraint `k`. -/
def Journal.Without (k : ℕ) (j j' : Journal σ) : Prop :=
  j.calls.toList = j'.calls.toList.filterMap (Call.without k)

/-- The causes are the same, with one constraint more in place `k`. -/
def Failure.Raised (k : ℕ) (e e' : Failure SolverError) : Prop := e' = e.map (SolverError.raise k)

lemma Failure.raised_fault (k : ℕ) (f : Fault) : Raised k (.fault f) (.fault f) := rfl

lemma Journal.Without.push {j j' : Journal σ} {w w' : σ} (h : Without k j j') {t t' : Target}
    (ht : t'.without k = some t) (x : Point) (out : Except (Failure EvalError) Float) :
    Without k { j with world := w, calls := j.calls.push ⟨t, x, out⟩ }
      { j' with world := w', calls := j'.calls.push ⟨t', x, out⟩ } := by
  simpa [Without, Call.without, ht] using h

/-- A function that ignores the world is called on both sides. -/
lemma coupled_consult {t t' : Target} (ht : t'.without k = some t) (x : Point)
    {ask : Point → StateM σ (Except (Failure EvalError) Float)}
    (hask : ∀ w w', (ask x w).1 = (ask x w').1) {rename rename' : EvalError → SolverError}
    (hrename : ∀ e, rename' e = (rename e).raise k) :
    Run.Coupled (Journal.Without k) (Failure.Raised k) Eq ((Run.consult t x ask).mapError rename)
      ((Run.consult t' x ask).mapError rename') := by
  refine .consult ?_ fun j j' hj => ⟨hask _ _, hj.push ht x⟩
  rintro (e | f)
  · exact congrArg Failure.error (hrename e)
  · rfl

/-- The satisfied constraint is called on one side alone. -/
lemma exec_satisfied {c : Constraint σ} (hc : c.Satisfied n) {x : Point} (hx : x.length = n)
    {j j' : Journal σ} (hj : Journal.Without k j j') (rename : EvalError → SolverError) :
    ∃ v j'', ((c.observe k x).mapError rename).exec j' = (.ok v, j'') ∧ v ≤ 0.0 ∧
      Journal.Without k j j'' := by
  obtain ⟨v, hv, hle⟩ := hc x j'.world hx
  rw [Run.exec_mapError, Constraint.observe, Run.exec_consult, hv]
  refine ⟨v, _, rfl, hle, ?_⟩
  simpa [Journal.Without, Call.without, Target.without] using hj

/-- Constraints behind the satisfied one are called under the next number. -/
lemma coupled_constraintsFrom_succ {cs : List (Constraint σ)} (x : Point)
    (hcs : ∀ c ∈ cs, ∀ x w w', (c.evaluate x w).1 = (c.evaluate x w').1) {i : ℕ} (hi : k ≤ i) :
    Run.Coupled (Journal.Without k) (Failure.Raised k) Eq
      (PenaltyFunction.constraintsFrom x i cs) (PenaltyFunction.constraintsFrom x (i + 1) cs) := by
  induction cs generalizing i with
  | nil => exact .pure rfl
  | cons c cs ih =>
    obtain ⟨hc, hcs⟩ := List.forall_mem_cons.mp hcs
    have ht : (Target.constraint (i + 1)).without k = some (.constraint i) := by
      rw [Target.without, if_neg (by omega), if_neg (by omega), Nat.add_sub_cancel]
    have hrename : ∀ e, SolverError.constraintEvaluation (i + 1) e =
        (SolverError.constraintEvaluation i e).raise k := by
      intro e
      rw [SolverError.raise, if_neg (by omega)]
    refine (coupled_consult ht x (hc x) hrename).bind ?_
    rintro g _ rfl
    refine (ih hcs (by omega)).bind ?_
    rintro gs _ rfl
    exact .pure rfl

/-- **Constraints with a satisfied one among them** return a value more, which is not positive. -/
theorem coupled_constraintsFrom {c : Constraint σ} (hc : c.Satisfied n) {x : Point}
    (hx : x.length = n) {i l : ℕ} (hk : k = i + l) {cs : List (Constraint σ)} (hl : l ≤ cs.length)
    (hcs : ∀ c ∈ cs, ∀ x w w', (c.evaluate x w).1 = (c.evaluate x w').1) :
    Run.Coupled (Journal.Without k) (Failure.Raised k)
      (fun g g' => ∃ v : Float, v ≤ 0.0 ∧ g' = g.insertIdx l v)
      (PenaltyFunction.constraintsFrom x i cs)
      (PenaltyFunction.constraintsFrom x i (cs.insertIdx l c)) := by
  induction l generalizing i cs with
  | zero =>
    obtain rfl : k = i := hk
    intro j j' hj
    obtain ⟨v, j'', hv, hle, hj''⟩ := exec_satisfied hc hx hj (.constraintEvaluation k)
    have hrest := coupled_constraintsFrom_succ x hcs le_rfl j j'' hj''
    rw [List.insertIdx_zero, PenaltyFunction.constraintsFrom, Run.exec_bind, hv]
    dsimp only
    rw [Run.exec_bind]
    generalize (PenaltyFunction.constraintsFrom x k cs).exec j = out at hrest
    generalize (PenaltyFunction.constraintsFrom x (k + 1) cs).exec j'' = out' at hrest
    cases hrest with
    | failed cause journal => exact .failed cause journal
    | returned value journal =>
      subst value
      exact .returned ⟨v, hle, rfl⟩ journal
  | succ l ih =>
    cases cs with
    | nil => cases hl
    | cons d cs =>
      obtain ⟨hd, hcs⟩ := List.forall_mem_cons.mp hcs
      have ht : (Target.constraint i).without k = some (.constraint i) := by
        rw [Target.without, if_pos (by omega)]
      have hrename : ∀ e, SolverError.constraintEvaluation i e =
          (SolverError.constraintEvaluation i e).raise k := by
        intro e
        rw [SolverError.raise, if_pos (by omega)]
      refine (coupled_consult ht x (hd x) hrename).bind ?_
      rintro g _ rfl
      refine (ih (by omega) (Nat.le_of_succ_le_succ hl) hcs).bind ?_
      rintro gs _ ⟨v, hle, rfl⟩
      exact .pure ⟨v, hle, rfl⟩

/-! ## The searches -/

section Search

variable {q : Problem σ} {c : Constraint σ} {o : Options} {start : Start}

lemma Problem.objection?_insertConstraint (hc : Agrees q.x0.length c.dimension) :
    (q.insertConstraint k c hc).objection? o start = q.objection? o start := by
  cases start <;> rfl

lemma Problem.Accepts.insertConstraint (h : q.Accepts o start)
    (hc : Agrees q.x0.length c.dimension) : (q.insertConstraint k c hc).Accepts o start := by
  rw [← objection?_eq_none_iff] at h ⊢
  rwa [objection?_insertConstraint]

/-- **Searches with a satisfied constraint more** correspond to those without it. -/
def Mirror.ofSatisfied (h : q.Accepts o start) (hq : q.IgnoresWorld)
    (hk : k ≤ q.constraintCount) (hc : Agrees q.x0.length c.dimension)
    (hsatisfied : c.Satisfied q.dimension) :
    Mirror h.penalty (h.insertConstraint (k := k) hc).penalty q.dimension where
  toPointRelation := Point.sharing q.dimension
  vertices v v' := v.sample = v'.sample.without k ∧ v.point.length = q.dimension ∧
    rankKey v.augmented = rankKey v'.augmented
  traces := Trace.Without k
  causes := Failure.Raised k
  journals := Journal.Without k
  point := fun ⟨hsample, hlength, _⟩ => ⟨congrArg Sample.point hsample, hlength⟩
  compare := fun ⟨_, _, hu⟩ ⟨_, _, hv⟩ => .of_rankKey hu hv
  evaluate := by
    rintro x _ ⟨rfl, hx⟩
    have hobjective : Run.Coupled (Journal.Without k) (Failure.Raised k) Eq
        (h.penalty.objectiveAt x) ((h.insertConstraint (k := k) hc).penalty.objectiveAt x) := by
      refine coupled_consult rfl x ?_ fun _ => rfl
      intro w w'
      exact congrArg (Except.mapError Failure.error) (hq.objective x w w')
    have hconstraints := coupled_constraintsFrom hsatisfied hx (Nat.zero_add k).symm hk
      hq.constraints
    have hfound : Run.Coupled (Journal.Without k) (Failure.Raised k)
        (fun e e' => ∃ (f : Float) (g : Point) (v : Float), v ≤ 0.0 ∧ e = h.penalty.combine f g ∧
          e' = (h.insertConstraint (k := k) hc).penalty.combine f (g.insertIdx k v))
        (h.penalty.evaluate x) ((h.insertConstraint (k := k) hc).penalty.evaluate x) := by
      refine hobjective.bind ?_
      rintro f _ rfl
      refine hconstraints.bind ?_
      rintro g _ ⟨v, hle, rfl⟩
      exact .pure ⟨f, g, v, hle, rfl, rfl⟩
    refine hfound.bind ?_
    rintro _ _ ⟨f, g, v, hle, rfl, rfl⟩
    refine .pure ⟨?_, hx, ?_⟩
    · show (⟨x, f, g⟩ : Sample) = ⟨x, f, (g.insertIdx k v).eraseIdx k⟩
      rw [List.eraseIdx_insertIdx_self]
    · exact (PenaltyFunction.rankKey_combine_insertIdx rfl rfl f hle k g).symm
  empty := rfl
  record := fun htraces ⟨hsample, _, _⟩ evaluations => htraces.record hsample evaluations
  told := fun h _ _ => h
  fault := Failure.raised_fault k

/-! ## The runs -/

/-- A wider trace needs more room. -/
lemma Trace.Fits.of_succ {maxIter : ℕ} (h : Fits n (m + 1) maxIter) : Fits n m maxIter := by
  refine (Nat.mul_le_mul_left _ ?_).trans h
  exact max_le_max le_rfl (max_le_max le_rfl (Nat.le_succ m))

/-- **A run without and with the constraint `k`.**  `room` says whether there is room for the trace
with the constraint. -/
inductive Unchanged (k : ℕ) (room : Prop)
    (out out' : Except (Failure SolverError) SearchResult × Journal σ) : Prop
  /-- Both return, and the results are the same up to the columns of the constraint; or both fail
  for the same cause up to the numbers of the constraints.  Either way they make the same calls,
  those of the constraint apart. -/
  | corresponds (together : Together (Journal.Without k) (Failure.Raised k)
      (fun r r' => r = r'.withoutConstraint k) out out')
  /-- There is no room for the trace with the constraint.  The run with it stops after its first
  simplex, which the other one evaluates too. -/
  | noRoom (full : ¬room) (fault : ∃ f, out'.1 = .error (.fault f))
    (calls : out'.2.calls.toList.filterMap (Call.without k) <+: out.2.calls.toList)

lemma Mirror.result_eq (h : q.Accepts o start) (hq : q.IgnoresWorld) (hk : k ≤ q.constraintCount)
    (hc : Agrees q.x0.length c.dimension) (hsatisfied : c.Satisfied q.dimension)
    {r r' : SearchResult} (hresults : (ofSatisfied h hq hk hc hsatisfied).Results r r') :
    r = r'.withoutConstraint k := by
  obtain ⟨s, s', hstates, hr, hr'⟩ := hresults
  have hcount : (h.insertConstraint (k := k) hc).penalty.constraintCount =
      q.constraintCount + 1 := List.length_insertIdx_of_le_length hk _
  rw [hcount] at hr'
  have hread := (ofTrace_eq_ok_iff.mp hr').without (Nat.lt_succ_of_le hk)
  have htrace : s.trace.rows.toList = s'.trace.rows.toList.map (Row.without k) := hstates.trace
  rw [← htrace, ← hstates.evaluations] at hread
  exact Except.ok.inj (hr.symm.trans (ofTrace_eq_ok_iff.mpr hread))

/-- Searches without and with a satisfied constraint, from journals that differ in its calls. -/
lemma unchanged_search (h : q.Accepts o start) (hq : q.IgnoresWorld) (hk : k ≤ q.constraintCount)
    (hc : Agrees q.x0.length c.dimension) (hsatisfied : c.Satisfied q.dimension) (maxIter : ℕ)
    {j₀ j₀' : Journal σ} (hstart : Journal.Without k j₀ j₀') :
    Unchanged k (Trace.Fits q.dimension (q.constraintCount + 1) maxIter)
      ((search h.penalty q.dimension (start.points q o) maxIter).exec j₀)
      ((search (h.insertConstraint (k := k) hc).penalty q.dimension (start.points q o)
        maxIter).exec j₀') := by
  have hlength := h.length_of_mem_points
  have hcount : (h.insertConstraint (k := k) hc).penalty.constraintCount =
      q.constraintCount + 1 := List.length_insertIdx_of_le_length hk _
  rw [← hcount]
  by_cases hfits : Trace.Fits q.dimension (h.insertConstraint (k := k) hc).penalty.constraintCount
    maxIter
  · have htogether := (Mirror.ofSatisfied h hq hk hc hsatisfied).search_of_fits
      (Point.Shared.refl hlength) q.dimension_pos q.agrees_constraint
      (q.insertConstraint k c hc).agrees_constraint hlength hlength h.length_points
      (hcount ▸ hfits).of_succ hfits j₀ j₀' hstart
    exact .corresponds (htogether.imp fun _ _ => Mirror.result_eq h hq hk hc hsatisfied)
  · have hfirst := (Mirror.ofSatisfied h hq hk hc hsatisfied).mapM_evaluate
      (Point.Shared.refl hlength) j₀ j₀' hstart
    have hends : Ends h.penalty q.dimension True _ j₀ _ :=
      ends_mapM_evaluate q.agrees_constraint hlength j₀
    rw [search_eq, search_eq, Run.exec_bind, Run.exec_bind]
    generalize ((start.points q o).mapM (Vertex.evaluate h.penalty)).exec j₀ = out
      at hfirst hends ⊢
    generalize ((start.points q o).mapM
      (Vertex.evaluate (h.insertConstraint (k := k) hc).penalty)).exec j₀' = out' at hfirst ⊢
    cases hfirst with
    | failed cause journal => exact .corresponds (.failed cause journal)
    | @returned vs vs' j j' simplexes journal =>
      cases hends with
      | returned hvs _ _ =>
        have hgrows := ends_goOn q.agrees_constraint q.dimension_pos h.length_points hvs maxIter j
        dsimp only
        rw [Search.goOn_of_not_fits hfits]
        exact .noRoom hfits ⟨_, rfl⟩ (journal ▸ hgrows.prefix_calls)

/-- **A constraint that is always satisfied changes nothing**, wherever it is inserted and however
the run ends. -/
theorem Problem.unchanged (q : Problem σ) (hq : q.IgnoresWorld) (hk : k ≤ q.constraintCount)
    (hc : Agrees q.x0.length c.dimension) (hsatisfied : c.Satisfied q.dimension) (o : Options)
    (start : Start) (maxIter : ℕ) (w w' : σ) :
    Unchanged k (Trace.Fits q.dimension (q.constraintCount + 1) maxIter)
      ((q.run o maxIter start).execIn w)
      (((q.insertConstraint k c hc).run o maxIter start).execIn w') := by
  have hempty : ∀ {j j' : Journal σ}, j.calls = #[] → j'.calls = #[] → Journal.Without k j j' := by
    intro j j' h h'
    rw [Journal.Without, h, h']
    rfl
  rcases hobjection : q.objection? o start with _ | e
  · have h := objection?_eq_none_iff.mp hobjection
    obtain ⟨j₀, -, hcalls, hexec⟩ := h.exec_run maxIter w
    obtain ⟨j₀', -, hcalls', hexec'⟩ := (h.insertConstraint (k := k) hc).exec_run maxIter w'
    have hpoints : start.points (q.insertConstraint k c hc) o = start.points q o := by
      cases start <;> rfl
    rw [hpoints] at hexec'
    rw [hexec, hexec']
    exact unchanged_search h hq hk hc hsatisfied maxIter (hempty hcalls hcalls')
  · obtain ⟨hcause, hrefuses⟩ := refuses_of_objection hobjection
    obtain ⟨-, hrefuses'⟩ :=
      refuses_of_objection ((objection?_insertConstraint hc).trans hobjection)
    obtain ⟨j, hrun, -, hcalls⟩ := hrefuses maxIter w
    obtain ⟨j', hrun', -, hcalls'⟩ := hrefuses' maxIter w'
    rw [hrun, hrun']
    refine .corresponds (.failed ?_ (hempty hcalls hcalls'))
    exact congrArg Failure.error (SolverError.raise_of_evalError? hcause).symm

end Search

/-- A constraint that is always satisfied. -/
def slack : Constraint Unit := .blackBox (.ofPoint fun _ => .ok (-1.0))

lemma satisfied_slack (n : ℕ) : slack.Satisfied n :=
  fun _ _ _ => ⟨-1.0, rfl, by decide +kernel⟩

lemma ignoresWorld_square : square.IgnoresWorld where
  objective _ _ _ := rfl
  constraints _ _ _ _ _ := rfl

theorem Problem.unchanged_square :
    Unchanged 0 (Trace.Fits 1 2 2) ((square.run {} 2 (.given segment)).execIn ())
      (((square.insertConstraint 0 slack (by decide)).run {} 2 (.given segment)).execIn ()) :=
  square.unchanged ignoresWorld_square (Nat.zero_le 1) (by decide) (satisfied_slack 1) {}
    (.given segment) 2 () ()

end NelderMead
