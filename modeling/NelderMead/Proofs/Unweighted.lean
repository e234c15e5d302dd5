import NelderMead.Proofs.Locality

/-!
# A coefficient of zero

With coefficient zero a penalty that is a number is zero, so the constraints do not matter: a run
takes the path of the run without constraints and records the same objectives.  There is one limit.
Where the charges add up to infinity, a violation being infinite or its square or the sum too large,
zero times the sum is not a number, and neither is the augmented value.  Such a point ranks last,
whatever its objective.

* `rankKey_combine_of_finite` — the augmented value is the objective, if the charges are finite.
* `Sample.bare`, `Trace.SameBare`, `Mirror.unweighted` — the searches correspond up to the values of
  the constraints, if the charges are finite everywhere.
* `Problem.withValues`, `liftedValues` — constraints of given values, and values that make the
  charges finite where a run does not go.
* `SameRun`, **`Problem.Computes.unweighted`** — the runs correspond, if the charges are finite where
  they go.
* `burdened`, **`not_unweighted_burdened`** — a run where the charges add up to infinity.
-/

namespace NelderMead

open Binary64

variable {σ : Type}

/-! ## Penalties of zero -/

/-- **With coefficient zero** and charges that add up to a finite number, the augmented value is the
objective. -/
lemma PenaltyFunction.rankKey_combine_of_finite {p : PenaltyFunction σ} (hmu : (p.mu == 0.0) = true)
    {f : Float} {g : Point}
    (hcharge : f.isNaN = false → (totalCharge p.shape g).isFinite = true) :
    rankKey (p.combine f g).augmented = rankKey f := by
  rcases hf : f.isNaN with _ | _
  · obtain ⟨hmuNum, -, hmuZero⟩ := (beq_iff _ _).mp hmu
    have hmuFinite := p.zero_le_mu.1
    obtain ⟨hnum, hprod⟩ := ticks_mul hmuFinite (hcharge hf)
    rw [hmuZero, ticks_zero.2, zero_mul, Int.zero_ediv, roundInt_zero] at hprod
    exact rankKey_add_zero f ⟨hnum, hprod⟩
  · rw [rankKey_of_isNaN hf]
    exact rankKey_of_isNaN (isNaN_add (Or.inl hf))

/-- Without constraints the augmented value is the objective, with any coefficient. -/
lemma PenaltyFunction.rankKey_combine_nil (p : PenaltyFunction σ) (f : Float) :
    rankKey (p.combine f []).augmented = rankKey f :=
  rankKey_add_zero f (p.ticks_penalty_of_feasible (List.forall_mem_nil _))

/-! ## Traces up to the values of the constraints -/

/-- The sample without the values of the constraints. -/
def Sample.bare (y : Sample) : Sample := { y with constraints := [] }

/-- The row without the values of the constraints. -/
def Row.bare (r : Row) : Row := { r with current := r.current.bare, best := r.best.bare }

/-- **The traces agree** up to the values of the constraints. -/
def Trace.SameBare (t t' : Trace) : Prop :=
  t.rows.toList.map Row.bare = t'.rows.toList.map Row.bare

lemma Trace.map_bare_record (t : Trace) (y : Sample) (evaluations : ℕ) :
    (t.record y evaluations).rows.toList.map Row.bare = t.rows.toList.map Row.bare ++
      [⟨y.bare, better (t.rows.toList.map Row.bare).getLast? y.bare, evaluations⟩] := by
  rw [toList_rows_record, List.map_append, ← Array.getLast?_toList, List.getLast?_map,
    better_map Sample.bare Row.bare (fun _ => rfl) fun _ => rfl]
  rfl

lemma Trace.SameBare.record {t t' : Trace} (h : SameBare t t') {y y' : Sample}
    (hy : y.bare = y'.bare) (evaluations : ℕ) :
    SameBare (t.record y evaluations) (t'.record y' evaluations) := by
  rw [SameBare, map_bare_record, map_bare_record, h, hy]

/-- Results that agree up to the values of the constraints. -/
structure SearchResult.SameBare (r r' : SearchResult) : Prop where
  evaluations : r.evaluations = r'.evaluations
  samplesAtIteration : r.samplesAtIteration = r'.samplesAtIteration
  f : r.f = r'.f
  x : r.x = r'.x
  bestF : r.bestF = r'.bestF
  bestX : r.bestX = r'.bestX

/-- What is read off traces that agree agrees. -/
lemma SearchResult.sameBare_of_readOff {n m m' evaluations : ℕ} {t t' : Trace} {r r' : SearchResult}
    (h : t.SameBare t') (hr : r.ReadOff n m evaluations t.rows.toList)
    (hr' : r'.ReadOff n m' evaluations t'.rows.toList) : r.SameBare r' := by
  have hcolumn : ∀ {α : Type} (read : Row → α), (∀ row, (read ∘ Row.bare) row = read row) →
      t.rows.toList.map read = t'.rows.toList.map read := by
    intro α read hread
    have hcongr := congrArg (List.map read) h
    rw [List.map_map, List.map_map] at hcongr
    rwa [funext hread] at hcongr
  exact
    { evaluations := hr.evaluations_eq.trans hr'.evaluations_eq.symm
      samplesAtIteration := by
        rw [hr.samplesAtIteration, hr'.samplesAtIteration, hcolumn _ fun _ => rfl]
      f := by rw [hr.f, hr'.f, hcolumn _ fun _ => rfl]
      x := by
        have hx := hr.ofRows_x
        rw [hcolumn _ fun _ => rfl] at hx
        exact Except.ok.inj (hx.symm.trans hr'.ofRows_x)
      bestF := by rw [hr.bestF, hr'.bestF, hcolumn _ fun _ => rfl]
      bestX := by
        have hx := hr.ofRows_bestX
        rw [hcolumn _ fun _ => rfl] at hx
        exact Except.ok.inj (hx.symm.trans hr'.ofRows_bestX) }

/-! ## The searches -/

/-- **The problem without its constraints.** -/
def Problem.unconstrained (q : Problem σ) : Problem σ :=
  { q with constraints := [], agrees_constraint := List.forall_mem_nil _ }

section Runs

variable {q : Problem σ} {o o' : Options} {start : Start} {f : Point → Float} {g : Point → Point}

lemma Problem.Computes.unconstrained (hq : q.Computes f g) :
    q.unconstrained.Computes f fun _ => [] :=
  ⟨hq.objective, fun _ _ => .nil⟩

-- the two vertices are compared through this, never with each other
lemma Problem.Accepts.bare_vertexAt (h : q.Accepts o start) (x : Point) :
    (h.vertexAt f g x).sample.bare = ⟨x, f x, []⟩ := rfl

/-- Whether the charges add up to a finite number at all points that have an objective. -/
def Problem.FiniteCharges (q : Problem σ) (shape : PenaltyShape) (f : Point → Float)
    (g : Point → Point) : Prop :=
  ∀ x, x.length = q.dimension → (f x).isNaN = false →
    (PenaltyFunction.totalCharge shape (g x)).isFinite = true

lemma orderedAlike_unconstrained (h : q.Accepts o start) (h' : q.unconstrained.Accepts o' start)
    (hmu : (o.mu == 0.0) = true) (hcharges : q.FiniteCharges o.shape f g) :
    OrderedAlike q.dimension (h.augmentedAt f g) (h'.augmentedAt f fun _ => []) := by
  have hkey : ∀ x, x.length = q.dimension →
      rankKey (h.augmentedAt f g x) = rankKey (h'.augmentedAt f (fun _ => []) x) := by
    intro x hx
    exact (h.penalty.rankKey_combine_of_finite hmu (hcharges x hx)).trans
      (h'.penalty.rankKey_combine_nil (f x)).symm
  exact ⟨fun x y hx hy => (CompareAlike.of_rankKey (hkey x hx) (hkey y hy)).lt,
    fun x hx => by rw [isNaN_of_rankKey (hkey x hx)]⟩

/-- **Searches with coefficient zero** correspond to those without constraints. -/
def Mirror.unweighted (h : q.Accepts o start) (h' : q.unconstrained.Accepts o' start)
    (hq : q.Computes f g) (hmu : (o.mu == 0.0) = true) (hcharges : q.FiniteCharges o.shape f g) :
    Mirror h.penalty h'.penalty q.dimension :=
  { Mirror.ofOrder h h' rfl hq hq.unconstrained (orderedAlike_unconstrained h h' hmu hcharges) with
    traces := Trace.SameBare
    empty := rfl
    record := by
      rintro t t' _ _ htraces ⟨x, hx, rfl, rfl⟩ evaluations
      exact htraces.record ((h.bare_vertexAt x).trans (h'.bare_vertexAt x).symm) evaluations }

/-- **Two runs that agree** up to the values of the constraints.  `room` and `room'` say whether
there is room for their traces. -/
structure SameRun (points : List Point) (room room' : Prop)
    (out out' : Except (Failure SolverError) SearchResult × Journal σ) : Prop where
  /-- Both evaluate the same points in the same order and return. -/
  returns : room → room' → out.2.SamePoints out'.2 ∧
    ∃ r r', out.1 = .ok r ∧ out'.1 = .ok r' ∧ r.SameBare r'
  /-- A run that has no room evaluates the points of the simplex and stops. -/
  stops : ¬room → Stops points out
  stops' : ¬room' → Stops points out'

/-- Runs that correspond at all points agree. -/
lemma Problem.FiniteCharges.returns (hcharges : q.FiniteCharges o.shape f g) (hq : q.Computes f g)
    (h : q.Accepts o start) (h' : q.unconstrained.Accepts o' start)
    (hpoints : start.points q.unconstrained o' = start.points q o) (hmu : (o.mu == 0.0) = true)
    {maxIter : ℕ} (hfits : Trace.Fits q.dimension q.constraintCount maxIter)
    (hfits' : Trace.Fits q.dimension 0 maxIter) (w w' : σ) :
    ((q.run o maxIter start).execIn w).2.SamePoints
        ((q.unconstrained.run o' maxIter start).execIn w').2 ∧
      ∃ r r', ((q.run o maxIter start).execIn w).1 = .ok r ∧
        ((q.unconstrained.run o' maxIter start).execIn w').1 = .ok r' ∧ r.SameBare r' := by
  have hcorrespond : List.Forall₂ (Point.Shared q.dimension) (start.points q o)
      (start.points q.unconstrained o') := by
    rw [hpoints]
    exact Point.Shared.refl h.length_of_mem_points
  have htogether := (Mirror.unweighted h h' hq hmu hcharges).run_of_fits rfl hcorrespond
    w w' (.of_empty (start.calls_journal ..) (start.calls_journal ..)) hfits hfits'
  obtain ⟨r, j, hrun⟩ := hq.neverFails.exists_result h hfits w
  rw [hrun] at htogether ⊢
  generalize (q.unconstrained.run o' maxIter start).execIn w' = out' at htogether
  cases htogether with
  | returned results journal =>
    obtain ⟨s, s', hstates, hr, hr'⟩ := results
    have hread := ofTrace_eq_ok_iff.mp hr
    rw [hstates.evaluations] at hread
    exact ⟨journal, _, _, rfl, rfl,
      SearchResult.sameBare_of_readOff hstates.trace hread (ofTrace_eq_ok_iff.mp hr')⟩

/-! ### Charges along a run

What the constraints are worth where a run does not go makes no difference to it.  So they may be
lifted there, and then the charges are finite everywhere. -/

namespace Problem

/-- **The problem with as many constraints**, the values of which are given. -/
def withValues (q : Problem σ) (g' : Point → Point) : Problem σ :=
  { q with
    constraints := (List.range q.constraintCount).map fun i =>
      .blackBox (.ofPoint fun x => .ok ((g' x).getD i 0.0))
    agrees_constraint := List.forall_mem_map.mpr fun _ _ _ hd => nomatch hd }

lemma constraintCount_withValues (q : Problem σ) (g' : Point → Point) :
    (q.withValues g').constraintCount = q.constraintCount :=
  (List.length_map _).trans List.length_range

lemma points_withValues (g' : Point → Point) : start.points (q.withValues g') o = start.points q o := by
  cases start <;> rfl

lemma Accepts.withValues (h : q.Accepts o start) (g' : Point → Point) :
    (q.withValues g').Accepts o start := by
  refine ⟨h.spreadFraction, h.mu, ?_⟩
  cases start with
  | given simplex => exact h.start
  | sampled g => exact h.start

lemma Computes.withValues (hq : q.Computes f g) {g' : Point → Point}
    (hlength : ∀ x, x.length = q.dimension → (g' x).length = q.constraintCount) :
    (q.withValues g').Computes f g' where
  objective := hq.objective
  constraints x hx := by
    refine List.forall₂_map_left_iff.mpr (List.forall₂_iff_get.mpr ⟨?_, fun i hi hi' w => ?_⟩)
    · rw [List.length_range, hlength x hx]
    · have hget : (g' x).getD ((List.range q.constraintCount).get ⟨i, hi⟩) 0.0 =
          (g' x).get ⟨i, hi'⟩ := by
        rw [List.get_eq_getElem, List.getElem_range, List.getD_eq_getElem?_getD,
          List.getElem?_eq_getElem hi']
        rfl
      exact congrArg Except.ok hget

end Problem

/-- The values of `m` constraints, lifted to zero where their charges are too much for a point that
has an objective. -/
def liftedValues (shape : PenaltyShape) (m : ℕ) (f : Point → Float) (g : Point → Point)
    (x : Point) : Point :=
  if (f x).isNaN || (PenaltyFunction.totalCharge shape (g x)).isFinite then g x
  else List.replicate m 0.0

section Lifted

variable {shape : PenaltyShape} {m : ℕ} {x : Point}

/-- Values whose charges are finite stay as they are. -/
lemma liftedValues_of_isFinite
    (h : (f x).isNaN = false → (PenaltyFunction.totalCharge shape (g x)).isFinite = true) :
    liftedValues shape m f g x = g x := by
  refine if_pos ?_
  rcases hx : (f x).isNaN with _ | _
  · exact h hx
  · rfl

lemma length_liftedValues (h : (g x).length = m) : (liftedValues shape m f g x).length = m := by
  rw [liftedValues]
  split_ifs
  · exact h
  · exact List.length_replicate

/-- No charges are left that add up to infinity. -/
lemma isFinite_totalCharge_liftedValues (hx : (f x).isNaN = false) :
    (PenaltyFunction.totalCharge shape (liftedValues shape m f g x)).isFinite = true := by
  rw [liftedValues, hx, Bool.false_or]
  split_ifs with hfinite
  · exact hfinite
  · have hfeasible : ∀ gi ∈ List.replicate m (0.0 : Float), gi ≤ 0.0 := by
      intro gi hgi
      rw [List.eq_of_mem_replicate hgi]
      exact (le_iff _ _).mpr ⟨ticks_zero.1, ticks_zero.1, le_rfl⟩
    obtain ⟨hnum, hzero⟩ := ticks_foldl_charge shape ticks_neg_zero hfeasible
    exact isFinite_of_ticks_eq_zero hnum hzero

end Lifted

/-- **A coefficient of zero switches the penalty off**, as long as the charges add up to a finite
number wherever the run evaluates and finds an objective.  The run without constraints may have any
other coefficient and shape. -/
theorem Problem.Computes.unweighted (hq : q.Computes f g) (h : q.Accepts o start)
    (h' : q.unconstrained.Accepts o' start) (hspread : o'.spreadFraction = o.spreadFraction)
    (hmu : (o.mu == 0.0) = true) (maxIter : ℕ) (w w' : σ)
    (hcharges : ∀ y ∈ ((q.run o maxIter start).execIn w).2.samples, y.objective.isNaN = false →
      (PenaltyFunction.totalCharge o.shape y.constraints).isFinite = true) :
    SameRun (start.points q o) (Trace.Fits q.dimension q.constraintCount maxIter)
      (Trace.Fits q.dimension 0 maxIter) ((q.run o maxIter start).execIn w)
      ((q.unconstrained.run o' maxIter start).execIn w') := by
  have hpoints : start.points q.unconstrained o' = start.points q o := by
    cases start with
    | given simplex => rfl
    | sampled g =>
      rw [Start.points, Start.points, hspread]
      rfl
  refine ⟨?_, fun hfull => hq.neverFails.stops h hfull w,
    fun hfull => hpoints ▸ hq.unconstrained.neverFails.stops h' hfull w'⟩
  intro hfits hfits'
  obtain ⟨r, j, hrun⟩ := hq.neverFails.exists_result h hfits w
  rw [hrun] at hcharges ⊢
  have hagree : ∀ y ∈ j.samples,
      y = ⟨y.point, f y.point, liftedValues o.shape q.constraintCount f g y.point⟩ := by
    intro y hy
    have hvalues := hq.sample_eq h hrun hy
    have hcharge := hcharges y hy
    rw [hvalues] at hcharge
    rw [liftedValues_of_isFinite hcharge]
    exact hvalues
  -- with the lifted values the run is the same, and the charges are finite everywhere
  have hlifted : (q.withValues (liftedValues o.shape q.constraintCount f g)).Computes f
      (liftedValues o.shape q.constraintCount f g) :=
    hq.withValues fun x hx => length_liftedValues (hq.constraints x hx).length_eq.symm
  obtain ⟨j', hrun', hsamples⟩ := h.exec_run_of_agree (h.withValues _) rfl
    (Problem.points_withValues _) (q.constraintCount_withValues _) hlifted hrun hagree w
  have hfinite : (q.withValues (liftedValues o.shape q.constraintCount f g)).FiniteCharges o.shape f
      (liftedValues o.shape q.constraintCount f g) := fun _ _ => isFinite_totalCharge_liftedValues
  obtain ⟨hsame, r', r'', hr', hr'', hbare⟩ := hfinite.returns hlifted (h.withValues _) h'
    (hpoints.trans (Problem.points_withValues _).symm) hmu
    ((q.constraintCount_withValues _).symm ▸ hfits) hfits' w w'
  rw [hrun'] at hsame hr'
  obtain rfl := Except.ok.inj hr'
  obtain ⟨-, -, -, hwhole⟩ := h.exists_found hrun
  exact ⟨⟨hwhole, hsame.whole', hsamples ▸ hsame.points⟩, r, r'', rfl, hr'', hbare⟩

end Runs

/-! ## A linear constraint -/

/-- The default options, but for a coefficient of zero. -/
def weightless : Options := { mu := 0.0 }

lemma accepts_weightless : square.Accepts weightless (.given segment) :=
  ⟨by decide +kernel, by decide +kernel, rfl, rfl⟩

lemma accepts_unconstrained : square.unconstrained.Accepts otherPenalty (.given segment) :=
  ⟨by decide +kernel, by decide +kernel, rfl, rfl⟩

-- far below one the square of the violation overflows, but the run does not go there
theorem unweighted_square : (weightless.mu == 0.0) = true ∧
    (∀ y ∈ ((square.run weightless 2 (.given segment)).execIn ()).2.samples,
      y.objective.isNaN = false →
        (PenaltyFunction.totalCharge .l2 y.constraints).isFinite = true) ∧
    (PenaltyFunction.totalCharge .l2 (squareSlack [-1e200])).isFinite = false ∧
    SameRun [[3.0], [2.0]] (Trace.Fits 1 1 2) (Trace.Fits 1 0 2)
      ((square.run weightless 2 (.given segment)).execIn ())
      ((square.unconstrained.run otherPenalty 2 (.given segment)).execIn ()) := by
  have hmu : (weightless.mu == 0.0) = true := by decide +kernel
  have hcharges : ∀ y ∈ ((square.run weightless 2 (.given segment)).execIn ()).2.samples,
      y.objective.isNaN = false →
        (PenaltyFunction.totalCharge .l2 y.constraints).isFinite = true := by
    decide +kernel
  exact ⟨hmu, hcharges, by decide +kernel, computes_square.unweighted accepts_weightless
    accepts_unconstrained rfl hmu 2 () () hcharges⟩

/-! ## A constraint with one value -/

/-- The square of a number, with a constraint that has the value `v` at every point. -/
def burdened (v : Float) : Problem Unit :=
  { square with
    constraints := [.blackBox (.ofPoint fun _ => .ok v)]
    agrees_constraint := List.forall_mem_singleton.mpr fun _ hd => nomatch hd }

lemma computes_burdened (v : Float) : (burdened v).Computes squareValue fun _ => [v] :=
  ⟨fun _ _ _ => rfl, fun _ _ => .cons (fun _ => rfl) .nil⟩

lemma accepts_burdened (v : Float) : (burdened v).Accepts weightless (.given segment) :=
  ⟨by decide +kernel, by decide +kernel, rfl, rfl⟩

/-- **Charges that add up to infinity are an exception.**  The square of `1e200` is too large, so no
augmented value is a number and the vertices rank in the order of their slots: the run records the
objective at three before that at two, and the run without the constraint does not. -/
theorem not_unweighted_burdened : ¬∀ (q : Problem Unit) (f : Point → Float) (g : Point → Point)
    (o : Options) (start : Start) (maxIter : ℕ), q.Computes f g →
      (∀ x, ∀ gi ∈ g x, gi.isNaN = false) → (o.mu == 0.0) = true → q.Accepts o start →
      Trace.Fits q.dimension q.constraintCount maxIter →
      ∃ r r', ((q.run o maxIter start).execIn ()).1 = .ok r ∧
        ((q.unconstrained.run o maxIter start).execIn ()).1 = .ok r' ∧ r.SameBare r' := by
  intro h
  have hchecked : (match ((burdened 1e200).run weightless 1 (.given segment)).execIn (),
      ((burdened 1e200).unconstrained.run weightless 1 (.given segment)).execIn () with
    | (.ok r, _), (.ok r', _) => decide (r.f = [9.0] ∧ r'.f = [4.0])
    | (.error _, _), _ => false
    | _, (.error _, _) => false) = true := by
    decide +kernel
  obtain ⟨r, r', hr, hr', hsame⟩ := h (burdened 1e200) squareValue (fun _ => [1e200]) weightless
    (.given segment) 1 (computes_burdened 1e200)
    (fun _ => List.forall_mem_singleton.mpr (by decide +kernel)) (by decide +kernel)
    (accepts_burdened 1e200) (by decide +kernel)
  rcases hrun : ((burdened 1e200).run weightless 1 (.given segment)).execIn () with ⟨out, j⟩
  rcases hrun' : ((burdened 1e200).unconstrained.run weightless 1 (.given segment)).execIn ()
    with ⟨out', j'⟩
  rw [hrun] at hr hchecked
  rw [hrun'] at hr' hchecked
  obtain rfl : out = .ok r := hr
  obtain rfl : out' = .ok r' := hr'
  obtain ⟨hf, hf'⟩ := of_decide_eq_true hchecked
  have hdiffers : ([9.0] : List Float) ≠ [4.0] := by decide +kernel
  exact hdiffers (hf.symm.trans (hsame.f.trans hf'))

end NelderMead
