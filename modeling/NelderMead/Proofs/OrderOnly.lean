import NelderMead.Proofs.Congruence
import NelderMead.Proofs.Coupling
import NelderMead.Proofs.Unfailing

/-!
# Only the order counts

A search compares augmented values and does nothing else with them.  So two problems whose augmented
values are ordered alike are searched alike, whatever the values are, where the penalty comes from
and how many constraints there are: the same points are evaluated in the same order.

* `Problem.Computes` — functions that never fail and depend on the point alone, with their values.
* `PenaltyFunction.Finds` — that a vertex is what is found at its point, in any world.
* `OrderedAlike` — functions of points that order them alike.
* `Mirror.ofOrder` — the searches of such problems correspond.
* `SamePath`, **`Problem.Accepts.samePath`** — and so do their runs.
-/

namespace NelderMead

variable {σ τ : Type}

/-! ## Functions that compute values -/

/-- **The functions compute values**: the objective `f` and the constraints `g`, at every point of
the dimension and whatever the world. -/
structure Problem.Computes (q : Problem σ) (f : Point → Float) (g : Point → Point) : Prop where
  objective : ∀ x, x.length = q.dimension → ∀ w, (q.objective.call x w).1 = .ok (f x)
  constraints : ∀ x, x.length = q.dimension →
    List.Forall₂ (fun c v => ∀ w, (c.evaluate x w).1 = .ok v) q.constraints (g x)

lemma Problem.Computes.neverFails {q : Problem σ} {f : Point → Float} {g : Point → Point}
    (hq : q.Computes f g) : q.NeverFails where
  objective x hx w := ⟨_, hq.objective x hx w⟩
  constraints := by
    intro c hc x hx w
    obtain ⟨i, hi, rfl⟩ := List.getElem_of_mem hc
    have hvalues := hq.constraints x hx
    exact ⟨_, hvalues.get hi (hvalues.length_eq ▸ hi) w⟩

lemma exec_consult_of_ok {t : Target} {x : Point}
    {ask : Point → StateM σ (Except (Failure EvalError) Float)} {v : Float} {j : Journal σ}
    (rename : EvalError → SolverError) (h : (ask x j.world).1 = .ok v) :
    ∃ j', ((Run.consult t x ask).mapError rename).exec j = (.ok v, j') := by
  rw [Run.exec_mapError, Run.exec_consult, h]
  exact ⟨_, rfl⟩

lemma exec_objectiveAt {p : PenaltyFunction σ} {x : Point} {v : Float} {j : Journal σ}
    (h : (p.objective.call x j.world).1 = .ok v) :
    ∃ j', (p.objectiveAt x).exec j = (.ok v, j') := by
  refine exec_consult_of_ok _ ?_
  show (p.objective.call x j.world).1.mapError Failure.error = .ok v
  rw [h]
  rfl

/-- Constraints that have values are evaluated to these. -/
lemma exec_constraintsFrom {x : Point} {cs : List (Constraint σ)} {gs : Point}
    (h : List.Forall₂ (fun c v => ∀ w, (c.evaluate x w).1 = .ok v) cs gs) (i : ℕ) (j : Journal σ) :
    ∃ j', (PenaltyFunction.constraintsFrom x i cs).exec j = (.ok gs, j') := by
  induction h generalizing i j with
  | nil => exact ⟨j, rfl⟩
  | cons hc _ ih =>
    obtain ⟨j₁, hv⟩ := exec_consult_of_ok (.constraintEvaluation i) (hc j.world)
    obtain ⟨j₂, hgs⟩ := ih (i + 1) j₁
    exact ⟨j₂, Run.exec_bind_eq_ok.mpr ⟨_, j₁, hv, Run.exec_bind_eq_ok.mpr ⟨_, j₂, hgs, rfl⟩⟩⟩

/-- **The vertex is what is found at its point**, in any world. -/
structure PenaltyFunction.Finds (p : PenaltyFunction σ) (v : Vertex) : Prop where
  objective : ∀ w, (p.objective.call v.point w).1 = .ok v.found.objective
  constraints : List.Forall₂ (fun c g => ∀ w, (c.evaluate v.point w).1 = .ok g) p.constraints
    v.found.constraints
  found : v.found = p.combine v.found.objective v.found.constraints

/-- An evaluation that finds the same in any world never fails. -/
lemma PenaltyFunction.Finds.exec_evaluate {p : PenaltyFunction σ} {v : Vertex} (h : p.Finds v)
    (j : Journal σ) :
    ∃ j', (Vertex.evaluate p v.point).exec j = (.ok v, j') ∧ Evaluated p [v] j j' := by
  obtain ⟨j₁, hf⟩ := exec_objectiveAt (h.objective j.world)
  obtain ⟨j₂, hg⟩ := exec_constraintsFrom h.constraints 0 j₁
  have hfound : (p.evaluate v.point).exec j = (.ok v.found, j₂) := by
    rw [h.found]
    exact Run.exec_bind_eq_ok.mpr ⟨_, j₁, hf, Run.exec_bind_eq_ok.mpr ⟨_, j₂, hg, rfl⟩⟩
  have hexec : (Vertex.evaluate p v.point).exec j = (.ok v, j₂) :=
    Run.exec_bind_eq_ok.mpr ⟨_, j₂, hfound, rfl⟩
  exact ⟨j₂, hexec, (evaluated_of_exec hexec).2⟩

namespace Problem.Accepts

variable {q : Problem σ} {o : Options} {start : Start} {f : Point → Float} {g : Point → Point}

/-- The vertex at a point. -/
def vertexAt (h : q.Accepts o start) (f : Point → Float) (g : Point → Point) (x : Point) : Vertex :=
  ⟨x, h.penalty.combine (f x) (g x)⟩

@[simp] lemma point_sample_vertexAt (h : q.Accepts o start) (x : Point) :
    (h.vertexAt f g x).sample.point = x := rfl

/-- **The augmented value at a point.** -/
def augmentedAt (h : q.Accepts o start) (f : Point → Float) (g : Point → Point) (x : Point) :
    Float :=
  (h.vertexAt f g x).augmented

/-- Functions that compute values never fail. -/
lemma exec_evaluate (h : q.Accepts o start) (hq : q.Computes f g) {x : Point}
    (hx : x.length = q.dimension) (j : Journal σ) :
    ∃ j', (Vertex.evaluate h.penalty x).exec j = (.ok (h.vertexAt f g x), j') ∧
      Evaluated h.penalty [h.vertexAt f g x] j j' := by
  have hfinds : h.penalty.Finds (h.vertexAt f g x) :=
    ⟨hq.objective x hx, hq.constraints x hx, rfl⟩
  exact hfinds.exec_evaluate j

end Problem.Accepts

/-! ## Values that order points alike -/

/-- **The functions order points of dimension `n` alike**, by `<` and by where they are not numbers;
so they do by `≤`. -/
structure OrderedAlike (n : ℕ) (a b : Point → Float) : Prop where
  lt : ∀ x y, x.length = n → y.length = n → (a x < a y ↔ b x < b y)
  isNaN : ∀ x, x.length = n → ((a x).isNaN = true ↔ (b x).isNaN = true)

lemma OrderedAlike.compareAlike {n : ℕ} {a b : Point → Float} (h : OrderedAlike n a b) {x y : Point}
    (hx : x.length = n) (hy : y.length = n) : CompareAlike (a x) (a y) (b x) (b y) where
  lt := h.lt x y hx hy
  gt := h.lt y x hy hx
  isNaN_left := Bool.eq_iff_iff.mpr (h.isNaN x hx)
  isNaN_right := Bool.eq_iff_iff.mpr (h.isNaN y hy)

/-! ## The searches -/

/-- Two logs of whole evaluations, at the same points in the same order. -/
structure Journal.SamePoints (j : Journal σ) (j' : Journal τ) : Prop where
  whole : j.calls.toList = j.samples.flatMap Sample.calls
  whole' : j'.calls.toList = j'.samples.flatMap Sample.calls
  points : j.samples.map Sample.point = j'.samples.map Sample.point

/-- Whole evaluations at the same points may follow. -/
lemma Journal.SamePoints.append {j k : Journal σ} {j' k' : Journal τ} {ys ys' : List Sample}
    (h : j.SamePoints j') (hk : k.calls.toList = j.calls.toList ++ ys.flatMap Sample.calls)
    (hk' : k'.calls.toList = j'.calls.toList ++ ys'.flatMap Sample.calls)
    (hpoints : ys.map Sample.point = ys'.map Sample.point) : k.SamePoints k' := by
  rw [h.whole, ← List.flatMap_append] at hk
  rw [h.whole', ← List.flatMap_append] at hk'
  have hsamples : k.samples = j.samples ++ ys := by rw [Journal.samples, hk, samplesOf_flatMap]
  have hsamples' : k'.samples = j'.samples ++ ys' := by
    rw [Journal.samples, hk', samplesOf_flatMap]
  refine ⟨hsamples ▸ hk, hsamples' ▸ hk', ?_⟩
  rw [hsamples, hsamples', List.map_append, List.map_append, h.points, hpoints]

lemma Journal.SamePoints.of_empty {j : Journal σ} {j' : Journal τ} (h : j.calls = #[])
    (h' : j'.calls = #[]) : j.SamePoints j' := by
  refine ⟨?_, ?_, ?_⟩ <;> simp [Journal.samples, h, h', samplesOf]

section Order

variable {q : Problem σ} {q' : Problem τ} {o o' : Options} {start start' : Start}
  {f f' : Point → Float} {g g' : Point → Point}

/-- **Searches of problems that are ordered alike** correspond. -/
def Mirror.ofOrder (h : q.Accepts o start) (h' : q'.Accepts o' start')
    (hdim : q'.dimension = q.dimension) (hq : q.Computes f g) (hq' : q'.Computes f' g')
    (horder : OrderedAlike q.dimension (h.augmentedAt f g) (h'.augmentedAt f' g')) :
    Mirror h.penalty h'.penalty q.dimension where
  toPointRelation := Point.sharing q.dimension
  vertices v v' := ∃ x, x.length = q.dimension ∧ v = h.vertexAt f g x ∧ v' = h'.vertexAt f' g' x
  traces t t' := t.rows.toList.map (·.current.point) = t'.rows.toList.map (·.current.point) ∧
    t.rows.toList.map (·.evaluations) = t'.rows.toList.map (·.evaluations)
  causes e e' := ∃ f, e = .fault f ∧ e' = .fault f
  journals := Journal.SamePoints
  point := by
    rintro _ _ ⟨x, hx, rfl, rfl⟩
    exact ⟨rfl, hx⟩
  compare := by
    rintro _ _ _ _ ⟨x, hx, rfl, rfl⟩ ⟨y, hy, rfl, rfl⟩
    exact horder.compareAlike hx hy
  evaluate := by
    rintro x _ ⟨rfl, hx⟩ j j' hj
    obtain ⟨k, hexec, hevaluated⟩ := h.exec_evaluate hq hx j
    obtain ⟨k', hexec', hevaluated'⟩ := h'.exec_evaluate hq' (hx.trans hdim.symm) j'
    rw [hexec, hexec']
    exact .returned ⟨x, hx, rfl, rfl⟩ (hj.append hevaluated.calls hevaluated'.calls (by simp))
  empty := ⟨rfl, rfl⟩
  record := by
    rintro t t' _ _ ⟨hpoints, hcounts⟩ ⟨x, hx, rfl, rfl⟩ evaluations
    simp [Trace.record, hpoints, hcounts]
  told h e e' := ⟨h.whole, h.whole', h.points⟩
  fault f := ⟨f, rfl, rfl⟩

/-- What the results of corresponding searches share. -/
lemma Mirror.results_ofOrder {h : q.Accepts o start} {h' : q'.Accepts o' start'}
    {hdim : q'.dimension = q.dimension} {hq : q.Computes f g} {hq' : q'.Computes f' g'}
    {horder : OrderedAlike q.dimension (h.augmentedAt f g) (h'.augmentedAt f' g')}
    {r r' : SearchResult} (hresults : (ofOrder h h' hdim hq hq' horder).Results r r') :
    r.evaluations = r'.evaluations ∧ r.x = r'.x ∧ r.samplesAtIteration = r'.samplesAtIteration := by
  obtain ⟨s, s', hstates, hr, hr'⟩ := hresults
  obtain ⟨hpoints, hcounts⟩ := hstates.trace
  have hread := ofTrace_eq_ok_iff.mp hr
  have hread' := ofTrace_eq_ok_iff.mp hr'
  have hx := hread.ofRows_x
  rw [hpoints] at hx
  refine ⟨?_, Except.ok.inj (hx.symm.trans hread'.ofRows_x), ?_⟩
  · rw [hread.evaluations_eq, hread'.evaluations_eq, hstates.evaluations]
  · rw [hread.samplesAtIteration, hread'.samplesAtIteration, hcounts]

/-! ## The runs -/

/-- Points are evaluated to the vertices there. -/
lemma Problem.Accepts.exec_mapM_evaluate (h : q.Accepts o start) (hq : q.Computes f g)
    {points : List Point} (hpoints : ∀ x ∈ points, x.length = q.dimension) (j : Journal σ) :
    ∃ j', (points.mapM (Vertex.evaluate h.penalty)).exec j =
      (.ok (points.map (h.vertexAt f g)), j') := by
  induction points generalizing j with
  | nil =>
    rw [List.mapM_nil]
    exact ⟨j, rfl⟩
  | cons x points ih =>
    obtain ⟨hx, hrest⟩ := List.forall_mem_cons.mp hpoints
    obtain ⟨j₁, hv, -⟩ := h.exec_evaluate hq hx j
    obtain ⟨j₂, hvs⟩ := ih hrest j₁
    rw [List.mapM_cons]
    exact ⟨j₂, Run.exec_bind_eq_ok.mpr ⟨_, j₁, hv, Run.exec_bind_eq_ok.mpr ⟨_, j₂, hvs, rfl⟩⟩⟩

/-- Without room for the trace, a run whose functions compute values stops after its first
simplex. -/
lemma Problem.Accepts.stops (h : q.Accepts o start) (hq : q.Computes f g) {maxIter : ℕ}
    (hfull : ¬Trace.Fits q.dimension q.constraintCount maxIter) (w : σ) :
    Stops (start.points q o) ((q.run o maxIter start).execIn w) :=
  hq.neverFails.stops h hfull w

/-- **Two runs on the same path** from the points of one simplex.  `room` and `room'` say whether
there is room for their traces. -/
structure SamePath (points : List Point) (room room' : Prop)
    (out : Except (Failure SolverError) SearchResult × Journal σ)
    (out' : Except (Failure SolverError) SearchResult × Journal τ) : Prop where
  /-- Both evaluate the same points in the same order, and their results agree in the number of
  evaluations, in the best vertices and in the evaluations spent before each iteration. -/
  returns : room → room' → out.2.SamePoints out'.2 ∧ ∃ r r', out.1 = .ok r ∧ out'.1 = .ok r' ∧
    r.evaluations = r'.evaluations ∧ r.x = r'.x ∧ r.samplesAtIteration = r'.samplesAtIteration
  /-- A run that has no room evaluates the points of the simplex and stops. -/
  stops : ¬room → Stops points out
  stops' : ¬room' → Stops points out'

/-- **Problems whose augmented values are ordered alike are run alike**, from the same simplex and
for any number of iterations. -/
theorem Problem.Accepts.samePath (h : q.Accepts o start) (h' : q'.Accepts o' start')
    (hdim : q'.dimension = q.dimension) (hpoints : start'.points q' o' = start.points q o)
    (hq : q.Computes f g) (hq' : q'.Computes f' g')
    (horder : OrderedAlike q.dimension (h.augmentedAt f g) (h'.augmentedAt f' g')) (maxIter : ℕ)
    (w : σ) (w' : τ) :
    SamePath (start.points q o) (Trace.Fits q.dimension q.constraintCount maxIter)
      (Trace.Fits q'.dimension q'.constraintCount maxIter) ((q.run o maxIter start).execIn w)
      ((q'.run o' maxIter start').execIn w') := by
  refine ⟨?_, fun hfull => h.stops hq hfull w, fun hfull => hpoints ▸ h'.stops hq' hfull w'⟩
  intro hfits hfits'
  have hcorrespond : List.Forall₂ (Point.Shared q.dimension) (start.points q o)
      (start'.points q' o') := by
    rw [hpoints]
    exact Point.Shared.refl h.length_of_mem_points
  have htogether := (Mirror.ofOrder h h' hdim hq hq' horder).run_of_fits hdim hcorrespond
    w w' (.of_empty (start.calls_journal ..) (start'.calls_journal ..)) hfits hfits'
  obtain ⟨r, j, hrun⟩ := hq.neverFails.exists_result h hfits w
  rw [hrun] at htogether ⊢
  generalize (q'.run o' maxIter start').execIn w' = out' at htogether
  cases htogether with
  | returned results journal =>
    exact ⟨journal, _, _, rfl, rfl, Mirror.results_ofOrder results⟩

end Order

/-! ## The penalty as part of the objective -/

/-- The square of a number. -/
def squareValue (x : Point) : Float := x.foldl (fun s c => s + c * c) 0.0

/-- The constraint that the number is at least one. -/
def atLeastOne : LinearConstraint := ⟨[-1.0], 1.0⟩

/-- Its values. -/
def squareSlack (x : Point) : Point := [(atLeastOne.value x).toOption.getD 0.0]

lemma computes_square : square.Computes squareValue squareSlack where
  objective x _ w := rfl
  constraints x hx := by
    obtain ⟨v, hv, hevaluate⟩ := Constraint.exists_linear (g := atLeastOne) hx.symm
    rw [squareSlack, hv]
    exact .cons hevaluate .nil

lemma accepts_square : square.Accepts {} (.given segment) :=
  ⟨by decide +kernel, by decide +kernel, rfl, rfl⟩

/-- The square with its penalty as an objective without constraints. -/
def squareAlone : Problem Unit where
  objective := .ofPoint fun x => .ok (accepts_square.augmentedAt squareValue squareSlack x)
  x0 := [1.0]
  bounds := square.bounds
  constraints := []
  x0_ne_nil := square.x0_ne_nil
  length_bounds := square.length_bounds
  agrees_objective := by decide
  agrees_constraint := by decide

lemma computes_squareAlone :
    squareAlone.Computes (accepts_square.augmentedAt squareValue squareSlack) fun _ => [] :=
  ⟨fun _ _ _ => rfl, fun _ _ => .nil⟩

/-- Other settings of the penalty, which has nothing to act on. -/
def otherPenalty : Options := { shape := .l1, mu := 3.0 }

lemma accepts_squareAlone : squareAlone.Accepts otherPenalty (.given segment) :=
  ⟨by decide +kernel, by decide +kernel, rfl, rfl⟩

/-- A penalty that is a zero adds nothing to tell values apart. -/
lemma orderedAlike_squareAlone :
    OrderedAlike 1 (accepts_square.augmentedAt squareValue squareSlack)
      (accepts_squareAlone.augmentedAt (accepts_square.augmentedAt squareValue squareSlack)
        fun _ => []) := by
  have hkey : ∀ x, rankKey (accepts_square.augmentedAt squareValue squareSlack x) =
      rankKey (accepts_squareAlone.augmentedAt
        (accepts_square.augmentedAt squareValue squareSlack) (fun _ => []) x) := by
    intro x
    refine (rankKey_add_zero _ ?_).symm
    exact accepts_squareAlone.penalty.ticks_penalty_of_feasible (List.forall_mem_nil _)
  exact ⟨fun x y _ _ => (CompareAlike.of_rankKey (hkey x) (hkey y)).lt,
    fun x _ => by rw [isNaN_of_rankKey (hkey x)]⟩

theorem samePath_square :
    SamePath [[3.0], [2.0]] (Trace.Fits 1 1 5) (Trace.Fits 1 0 5)
      ((square.run {} 5 (.given segment)).execIn ())
      ((squareAlone.run otherPenalty 5 (.given segment)).execIn ()) :=
  accepts_square.samePath accepts_squareAlone rfl rfl computes_square computes_squareAlone
    orderedAlike_squareAlone 5 () ()

end NelderMead
