import NelderMead.Proofs.Coupling
import NelderMead.Proofs.StorageOrder
import Mathlib.Logic.Equiv.Basic

/-!
# The order of coordinates

Trial points are computed coordinate by coordinate: a centroid, a step and a mean treat all
coordinates alike and never bring two of them together.  So if the coordinates of a problem are
taken in another order, those of all its functions and of the first simplex, then the run asks for
the same points in the new order and finds the same values.  Nothing is needed of the arithmetic:
each coordinate goes through the same operations on both sides.

* `Point.permute` — the point with its coordinates in another order; `Point.zipWith_permute` and its
  neighbours say that what is computed coordinate by coordinate is permuted along.
* `Point.permuting` — the correspondence of points that the searches rely on.
* `Problem.Turned` — the problem whose functions are those of another after the inverse permutation.
* `Mirror.ofTurned` — the searches of the two correspond.
* **`Problem.Turned.coordinateOrder`** — and so do the runs, whatever comes of them.
-/

namespace NelderMead

variable {σ τ : Type} {n m : ℕ}

/-! ## Points -/

namespace Point

variable (s : Equiv.Perm (Fin n)) {x y : Point}

/-- **The point with its coordinates permuted**: coordinate `i` goes to place `s i`.  A point of
another dimension stays as it is. -/
def permute (x : Point) : Point :=
  if h : x.length = n then List.ofFn fun i => x.get ((s.symm i).cast h.symm) else x

@[simp] lemma length_permute (x : Point) : (x.permute s).length = x.length := by
  rw [permute]
  split_ifs with h
  · rw [List.length_ofFn, h]
  · rfl

lemma getElem_permute (hx : x.length = n) {i : ℕ} (hi : i < (x.permute s).length) :
    (x.permute s)[i] = getElem x (s.symm ⟨i, by simpa [hx] using hi⟩).val (by simp [hx]) := by
  simp [permute, hx]

/-- The inverse brings every coordinate back. -/
@[simp] lemma permute_symm (x : Point) : (x.permute s).permute s.symm = x := by
  by_cases hx : x.length = n
  · have hlength : (x.permute s).length = n := (length_permute s x).trans hx
    refine List.ext_getElem (by simp) fun i hi hi' => ?_
    rw [getElem_permute s.symm hlength, getElem_permute s hx]
    simp
  · rw [permute, permute, dif_neg hx, dif_neg hx]

/-- What is computed from two points coordinate by coordinate is permuted along. -/
lemma zipWith_permute (f : Float → Float → Float) (hx : x.length = n) (hy : y.length = n) :
    List.zipWith f (x.permute s) (y.permute s) = permute s (List.zipWith f x y) := by
  have hlength : (List.zipWith f x y).length = n := by
    rw [List.length_zipWith, hx, hy, Nat.min_self]
  refine List.ext_getElem (by simp) fun i hi hi' => ?_
  rw [List.getElem_zipWith, getElem_permute s hlength, getElem_permute s hx, getElem_permute s hy,
    List.getElem_zipWith]

lemma map_permute (f : Float → Float) (hx : x.length = n) :
    (x.permute s).map f = permute s (x.map f) := by
  have hlength : (x.map f).length = n := (List.length_map f).trans hx
  refine List.ext_getElem (by simp) fun i hi hi' => ?_
  rw [List.getElem_map, getElem_permute s hlength, getElem_permute s hx, List.getElem_map]

lemma permute_zeros : permute s (zeros n) = zeros n := by
  refine List.ext_getElem (by simp) fun i hi hi' => ?_
  rw [getElem_permute s (length_zeros n)]
  simp [zeros]

/-- **Corresponding points**: on one side the coordinates are permuted. -/
structure Permuted (x x' : Point) : Prop where
  eq : x' = x.permute s
  length : x.length = n

variable {s} {x' y' : Point}

lemma Permuted.zipWith (hx : Permuted s x x') (hy : Permuted s y y') (f : Float → Float → Float) :
    Alike (Permuted s) (matching x y (List.zipWith f x y))
      (matching x' y' (List.zipWith f x' y')) := by
  obtain ⟨rfl, hx⟩ := hx
  obtain ⟨rfl, hy⟩ := hy
  have hlength : (x.permute s).length = (y.permute s).length := by
    rw [length_permute, length_permute, hx, hy]
  rw [matching_of_eq _ (hx.trans hy.symm), matching_of_eq _ hlength]
  refine .ok ⟨zipWith_permute s f hx hy, ?_⟩
  rw [List.length_zipWith, hx, hy, Nat.min_self]

lemma Permuted.toward (hx : Permuted s x x') (hy : Permuted s y y') (k : Float) :
    Alike (Permuted s) (toward x y k) (toward x' y' k) :=
  hx.zipWith hy _

lemma Permuted.sum {ps ps' : List Point} (h : List.Forall₂ (Permuted s) ps ps') :
    Alike (Permuted s) (sum n ps) (sum n ps') :=
  Alike.foldlM (fun hx hy => hx.zipWith hy _) h ⟨(permute_zeros s).symm, length_zeros n⟩

lemma Permuted.mean {ps ps' : List Point} (h : List.Forall₂ (Permuted s) ps ps') :
    Alike (Permuted s) (mean n ps) (mean n ps') := by
  refine (Permuted.sum h).bind ?_
  rintro total _ ⟨rfl, hlength⟩
  rw [← h.length_eq]
  exact .ok ⟨map_permute s _ hlength, (List.length_map _).trans hlength⟩

variable (s) in
/-- **Points with permuted coordinates** correspond. -/
def permuting : PointRelation n where
  points := Permuted s
  toward := Permuted.toward
  mean := Permuted.mean

end Point

/-! ## Records and logs -/

section Records

variable (s : Equiv.Perm (Fin n))

/-- The sample with the coordinates of its point permuted. -/
def Sample.permute (y : Sample) : Sample := { y with point := y.point.permute s }

/-- The row with the coordinates of its points permuted. -/
def Row.permute (r : Row) : Row :=
  { r with current := r.current.permute s, best := r.best.permute s }

/-- The vertex with the coordinates of its point permuted. -/
def Vertex.permute (v : Vertex) : Vertex := { v with point := v.point.permute s }

/-- The call with the coordinates of its point permuted. -/
def Call.permute (c : Call) : Call := { c with point := c.point.permute s }

/-- **The matrix with its columns permuted**, if it has `n` of them. -/
def Matrix.permuteColumns (a : Matrix) : Matrix where
  cols := a.cols
  rows := a.rows.map (Point.permute s)
  length_row := by
    intro row hrow
    obtain ⟨r, hr, rfl⟩ := List.mem_map.mp hrow
    exact (Point.length_permute s r).trans (a.length_row r hr)

/-- **The result with the columns of its points permuted.** -/
def SearchResult.permute (r : SearchResult) : SearchResult :=
  { r with x := r.x.permuteColumns s, bestX := r.bestX.permuteColumns s }

/-- **The calls of `j'` are those of `j`** with the coordinates of their points permuted. -/
def Journal.Permuted (j : Journal σ) (j' : Journal τ) : Prop :=
  j'.calls = j.calls.map (Call.permute s)

variable {s}

lemma Trace.record_permute {t t' : Trace} (h : t'.rows = t.rows.map (Row.permute s)) (y : Sample)
    (evaluations : ℕ) : (t'.record (y.permute s) evaluations).rows =
      (t.record y evaluations).rows.map (Row.permute s) := by
  have hlast : t'.rows.back? = t.rows.back?.map (Row.permute s) := by
    rw [h, Array.back?_map]
  rw [record, record, Array.map_push, hlast, h,
    better_map (Sample.permute s) (Row.permute s) (fun _ => rfl) fun _ => rfl]
  rfl

lemma Matrix.ofRows_permuteColumns {cols : ℕ} {rows : List Point} {a : Matrix}
    (h : ofRows cols rows = .ok a) :
    ofRows cols (rows.map (Point.permute s)) = .ok (a.permuteColumns s) := by
  obtain ⟨rfl, rfl⟩ := rows_of_ofRows h
  exact ofRows_of_length (a.permuteColumns s).length_row

/-- **What is read off permuted rows** is the permuted result. -/
lemma SearchResult.ReadOff.permute {r : SearchResult} {evaluations : ℕ} {rows : List Row}
    (h : r.ReadOff n m evaluations rows) :
    (r.permute s).ReadOff n m evaluations (rows.map (Row.permute s)) := by
  have hkept : ∀ {α : Type} {read : Row → α}, (∀ row, read (row.permute s) = read row) →
      (rows.map (Row.permute s)).map read = rows.map read := by
    intro α read hread
    rw [List.map_map]
    exact List.map_congr_left fun row _ => hread row
  have hmoved : ∀ {read : Row → Point} {a : Matrix},
      (∀ row, read (row.permute s) = (read row).permute s) →
        Matrix.ofRows n (rows.map read) = .ok a →
          Matrix.ofRows n ((rows.map (Row.permute s)).map read) = .ok (a.permuteColumns s) := by
    intro read a hread ha
    rw [← Matrix.ofRows_permuteColumns ha, List.map_map, List.map_map]
    exact congrArg _ (List.map_congr_left fun row _ => hread row)
  have hx := hmoved (fun _ => rfl) h.ofRows_x
  have hbestX := hmoved (fun _ => rfl) h.ofRows_bestX
  exact
    { evaluations_eq := h.evaluations_eq
      iterations_eq := h.iterations_eq.trans (List.length_map _).symm
      f := h.f.trans (hkept fun _ => rfl).symm
      g := h.g.trans (hkept fun _ => rfl).symm
      x := (rows_of_ofRows hx).1
      bestF := h.bestF.trans (hkept fun _ => rfl).symm
      bestG := h.bestG.trans (hkept fun _ => rfl).symm
      bestX := (rows_of_ofRows hbestX).1
      samplesAtIteration := h.samplesAtIteration.trans (hkept fun _ => rfl).symm
      ofRows_g := by rw [hkept fun _ => rfl]; exact h.ofRows_g
      ofRows_x := hx
      ofRows_bestG := by rw [hkept fun _ => rfl]; exact h.ofRows_bestG
      ofRows_bestX := hbestX }

end Records

/-! ## Searches -/

/-- **The functions of `q'` are those of `q` after the inverse of `s`.**  They depend on the point
alone: what they return is the same in any world. -/
structure Problem.Turned {q : Problem σ} (s : Equiv.Perm (Fin q.dimension)) (q' : Problem τ) :
    Prop where
  dimension : q'.dimension = q.dimension
  objective : ∀ x : Point, x.length = q.dimension → ∀ w w',
    (q'.objective.call x w').1 = (q.objective.call (x.permute s.symm) w).1
  constraints : List.Forall₂ (fun c c' => ∀ x : Point, x.length = q.dimension → ∀ w w',
    (c'.evaluate x w').1 = (c.evaluate (x.permute s.symm) w).1) q.constraints q'.constraints

section Searches

variable {q : Problem σ} {q' : Problem τ} {s : Equiv.Perm (Fin q.dimension)} {o : Options}
  {maxIter : ℕ}

/-- Calls of corresponding functions at corresponding points end together. -/
lemma coupled_consult_permute {x : Point} (hx : x.length = q.dimension) (t : Target)
    {ask : Point → StateM σ (Except (Failure EvalError) Float)}
    {ask' : Point → StateM τ (Except (Failure EvalError) Float)}
    (hask : ∀ y : Point, y.length = q.dimension → ∀ w w',
      (ask' y w').1 = (ask (y.permute s.symm) w).1) (rename : EvalError → SolverError) :
    Run.Coupled (Journal.Permuted s) Eq Eq ((Run.consult t x ask).mapError rename)
      ((Run.consult t (x.permute s) ask').mapError rename) := by
  refine .consult (fun _ => rfl) fun j j' hj => ⟨?_, fun out => ?_⟩
  · rw [hask _ ((Point.length_permute s x).trans hx) j.world j'.world, Point.permute_symm]
  · rw [Journal.Permuted, Array.map_push, ← hj]
    rfl

lemma coupled_constraintsFrom_permute {x : Point} (hx : x.length = q.dimension)
    {cs : List (Constraint σ)} {cs' : List (Constraint τ)}
    (h : List.Forall₂ (fun c c' => ∀ x : Point, x.length = q.dimension → ∀ w w',
      (c'.evaluate x w').1 = (c.evaluate (x.permute s.symm) w).1) cs cs') (i : ℕ) :
    Run.Coupled (Journal.Permuted s) Eq Eq (PenaltyFunction.constraintsFrom x i cs)
      (PenaltyFunction.constraintsFrom (x.permute s) i cs') := by
  induction h generalizing i with
  | nil => exact .pure rfl
  | cons hc _ ih =>
    refine (coupled_consult_permute hx (.constraint i) hc (.constraintEvaluation i)).bind ?_
    rintro g _ rfl
    refine (ih (i + 1)).bind ?_
    rintro gs _ rfl
    exact .pure rfl

/-- A fault says nothing of coordinates. -/
lemma Failure.fault_eq_fault (f : Fault) : (fault f : Failure SolverError) = fault f := rfl

/-- **The searches of a problem in both orders of the coordinates** correspond. -/
def Mirror.ofTurned (hq : Problem.Turned s q') {start start' : Start} (h : q.Accepts o start)
    (h' : q'.Accepts o start') : Mirror h.penalty h'.penalty q.dimension where
  toPointRelation := Point.permuting s
  vertices v v' := v' = v.permute s ∧ v.point.length = q.dimension
  traces t t' := t'.rows = t.rows.map (Row.permute s)
  causes := Eq
  journals := Journal.Permuted s
  point := fun hv => ⟨congrArg Vertex.point hv.1, hv.2⟩
  compare := by
    rintro u _ v _ ⟨rfl, -⟩ ⟨rfl, -⟩
    exact ⟨.rfl, .rfl, rfl, rfl⟩
  evaluate := by
    rintro x _ ⟨rfl, hx⟩
    have hobjective : Run.Coupled (Journal.Permuted s) Eq Eq (h.penalty.objectiveAt x)
        (h'.penalty.objectiveAt (x.permute s)) := by
      refine coupled_consult_permute hx .objective (fun y hy w w' => ?_) _
      exact congrArg (Except.mapError Failure.error) (hq.objective y hy w w')
    have hconstraints := coupled_constraintsFrom_permute hx hq.constraints 0
    have hfound : Run.Coupled (Journal.Permuted s) Eq Eq (h.penalty.evaluate x)
        (h'.penalty.evaluate (x.permute s)) := by
      refine hobjective.bind ?_
      rintro f _ rfl
      refine hconstraints.bind ?_
      rintro g _ rfl
      exact .pure rfl
    refine hfound.bind ?_
    rintro e _ rfl
    exact .pure ⟨rfl, hx⟩
  empty := Array.map_empty.symm
  record := by
    rintro t t' v _ ht ⟨rfl, -⟩ evaluations
    exact Trace.record_permute ht v.sample evaluations
  told := fun hj _ _ => hj
  fault := Failure.fault_eq_fault

/-! ## Runs -/

lemma Problem.Turned.constraintCount (hq : Problem.Turned s q') :
    q'.constraintCount = q.constraintCount :=
  hq.constraints.length_eq.symm

/-- A request is objected to in both orders alike. -/
lemma Problem.Turned.objection? (hq : Problem.Turned s q') (a : Matrix) :
    q'.objection? o (.given (a.permuteColumns s)) = q.objection? o (.given a) := by
  have hrows : (a.permuteColumns s).rowCount = a.rowCount := List.length_map _
  rw [Problem.objection?, Problem.objection?, hrows, hq.dimension]
  rfl

lemma Mirror.result_eq_permute {hq : Problem.Turned s q'} {start start' : Start}
    {h : q.Accepts o start} {h' : q'.Accepts o start'} {r r' : SearchResult}
    (hresults : (ofTurned hq h h').Results r r') : r' = r.permute s := by
  obtain ⟨t, t', hstates, hr, hr'⟩ := hresults
  have hcount : h'.penalty.constraintCount = h.penalty.constraintCount := hq.constraintCount
  have htrace : t'.trace.rows = t.trace.rows.map (Row.permute s) := hstates.trace
  have hread := (ofTrace_eq_ok_iff.mp hr).permute (s := s)
  rw [← Array.toList_map, ← htrace, hstates.evaluations, ← hcount] at hread
  exact Except.ok.inj (hr'.symm.trans (ofTrace_eq_ok_iff.mpr hread))

/-- **Searches in both orders** from corresponding points and with corresponding journals end
together, also where there is no room for the trace. -/
theorem Problem.Turned.search (hq : Problem.Turned s q') {start start' : Start}
    (h : q.Accepts o start) (h' : q'.Accepts o start')
    (hpoints : start'.points q' o = (start.points q o).map (Point.permute s)) (maxIter : ℕ) :
    Run.Coupled (Journal.Permuted s) Eq (fun r r' => r' = r.permute s)
      (NelderMead.search h.penalty q.dimension (start.points q o) maxIter)
      (NelderMead.search h'.penalty q.dimension (start'.points q' o) maxIter) := by
  have hcount : h'.penalty.constraintCount = h.penalty.constraintCount := hq.constraintCount
  have hlength := h.length_of_mem_points
  have hcorrespond : List.Forall₂ (Point.Permuted s) (start.points q o) (start'.points q' o) := by
    rw [hpoints, List.forall₂_map_right_iff]
    exact List.forall₂_same.mpr fun x hx => ⟨rfl, hlength x hx⟩
  by_cases hfits : Trace.Fits q.dimension h.penalty.constraintCount maxIter
  · intro j j' hj
    have htogether := (Mirror.ofTurned hq h h').search_of_fits hcorrespond q.dimension_pos
      q.agrees_constraint (hq.dimension ▸ q'.agrees_constraint) hlength
      (hq.dimension ▸ h'.length_of_mem_points) h.length_points hfits (hcount ▸ hfits) j j' hj
    exact htogether.imp fun _ _ => Mirror.result_eq_permute
  · rw [search_eq, search_eq]
    refine ((Mirror.ofTurned hq h h').mapM_evaluate hcorrespond).bind fun vs vs' _ j j' hj => ?_
    rw [Search.goOn_of_not_fits hfits, Search.goOn_of_not_fits (hcount ▸ hfits), hcount]
    exact .failed rfl hj

/-- **The order of the coordinates does not matter.**  With the coordinates permuted, in the
functions and in the first simplex, a run makes the same calls at the permuted points and comes to
the same result with the columns of its points permuted, or fails for the same cause. -/
theorem Problem.Turned.coordinateOrder (hq : Problem.Turned s q') (a : Matrix) (o : Options)
    (maxIter : ℕ) (w : σ) (w' : τ) :
    Together (Journal.Permuted s) Eq (fun r r' => r' = r.permute s)
      ((q.minimizeFrom a maxIter o).execIn w)
      ((q'.minimizeFrom (a.permuteColumns s) maxIter o).execIn w') := by
  have hempty : ∀ {j : Journal σ} {j' : Journal τ}, j.calls = #[] → j'.calls = #[] →
      Journal.Permuted s j j' := by
    intro j j' hj hj'
    rw [Journal.Permuted, hj, hj', Array.map_empty]
  rcases hobjection : q.objection? o (.given a) with _ | e
  · have h := objection?_eq_none_iff.mp hobjection
    have h' := objection?_eq_none_iff.mp ((hq.objection? a).trans hobjection)
    have hrun := h.exec_run_eq maxIter w
    have hrun' := h'.exec_run_eq maxIter w'
    rw [run] at hrun hrun'
    rw [hrun, hrun', hq.dimension]
    exact hq.search h h' rfl maxIter _ _ (hempty rfl rfl)
  · obtain ⟨j, hfail, -, hcalls⟩ := (refuses_of_objection hobjection).2 maxIter w
    obtain ⟨j', hfail', -, hcalls'⟩ :=
      (refuses_of_objection ((hq.objection? a).trans hobjection)).2 maxIter w'
    rw [run] at hfail hfail'
    rw [hfail, hfail']
    exact .failed rfl (hempty hcalls hcalls')

end Searches

/-! ## A run on a plane with its axes swapped -/

/-- The square of the distance from the first axis, and the first coordinate. -/
def valleyValue (x : Point) : Float := x.getD 0 0.0 + x.getD 1 0.0 * x.getD 1 0.0

/-- The constraint that the first coordinate is at least twice the second, and one. -/
def foreland : LinearConstraint := ⟨[-1.0, 2.0], 1.0⟩

/-- A valley along the first axis of a plane. -/
def valley : Problem Unit where
  objective := .ofPoint fun x => .ok (valleyValue x)
  x0 := [1.0, 1.0]
  bounds := bowl.bounds
  constraints := [.linear foreland]
  x0_ne_nil := bowl.x0_ne_nil
  length_bounds := bowl.length_bounds
  agrees_objective := bowl.agrees_objective
  agrees_constraint := by decide

/-- The same valley with the axes swapped. -/
def swappedValley : Problem Unit where
  objective := .ofPoint fun x => .ok (valleyValue x.reverse)
  x0 := [1.0, 1.0]
  bounds := bowl.bounds
  constraints := [.blackBox (.ofPoint fun x => .ok ((foreland.value x.reverse).toOption.getD 0.0))]
  x0_ne_nil := bowl.x0_ne_nil
  length_bounds := bowl.length_bounds
  agrees_objective := bowl.agrees_objective
  agrees_constraint := by decide

/-- Swaps the axes of a plane. -/
def swapAxes : Equiv.Perm (Fin valley.dimension) := (Equiv.swap 0 1 : Equiv.Perm (Fin 2))

-- the two problems are compared through their dimensions, never with each other
lemma dimension_valley : valley.dimension = 2 := rfl

lemma dimension_swappedValley : swappedValley.dimension = 2 := rfl

lemma permute_swapAxes {x : Point} (hx : x.length = 2) : x.permute swapAxes.symm = x.reverse := by
  obtain ⟨a, b, rfl⟩ := List.length_eq_two.mp hx
  rfl

lemma turned_valley : Problem.Turned swapAxes swappedValley where
  dimension := dimension_swappedValley.trans dimension_valley.symm
  objective := by
    intro x hx w w'
    rw [permute_swapAxes hx]
    rfl
  constraints := by
    refine .cons (fun x hx w w' => ?_) .nil
    have hlength : x.reverse.length = 2 := List.length_reverse.trans hx
    obtain ⟨v, hv, hevaluate⟩ := Constraint.exists_linear (σ := Unit) (g := foreland) hlength.symm
    rw [permute_swapAxes hx, hevaluate w]
    show (Except.ok ((foreland.value x.reverse).toOption.getD 0.0)).mapError Failure.error = .ok v
    rw [hv]
    rfl

theorem coordinateOrder_valley : Together (Journal.Permuted swapAxes) Eq
    (fun r r' => r' = r.permute swapAxes) ((valley.minimizeFrom triangle 3 {}).execIn ())
    ((swappedValley.minimizeFrom (triangle.permuteColumns swapAxes) 3 {}).execIn ()) :=
  turned_valley.coordinateOrder triangle {} 3 () ()

end NelderMead
