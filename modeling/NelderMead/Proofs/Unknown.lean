import NelderMead.Proofs.StorageOrder

/-!
# Values that are not numbers

An objective that is not a number makes the augmented value none, so its vertex ranks behind every
number.  A constraint that is not a number does nothing of the kind.  Its violation counts as none,
so it is charged like a constraint that is satisfied with equality, and a point about whose
feasibility nothing is known may become the best of the simplex.

* `numberOrZero` — a value of a constraint as the penalty sees it.
* `Evaluation.OverlooksUnknown`, **`PenaltyFunction.overlooksUnknown_combine`** — what an evaluation
  makes of values that are not numbers.
* `Search.OverlooksUnknown` — what the ranking makes of them, and the row that is recorded next;
  **`PenaltyFunction.overlooksUnknown`** says so of all evaluations and all visited states.
* `veiled` — a problem that is best where its constraint is not a number.
-/

namespace NelderMead

open Binary64

variable {σ : Type} {p : PenaltyFunction σ} {n k : ℕ} {points : List Point} {maxIter : ℕ}
  {j₀ j j' : Journal σ}

/-! ## One evaluation -/

/-- The value of a constraint, or zero if it is not a number. -/
def numberOrZero (g : Float) : Float := if g.isNaN = true then 0.0 else g

lemma violation_numberOrZero (g : Float) : violation (numberOrZero g) = violation g := by
  rw [numberOrZero]
  split_ifs with hnan
  · have hg : ¬0.0 < g := fun h => by
      rw [((lt_iff _ _).mp h).2.1] at hnan
      cases hnan
    rw [violation, violation, if_neg hg, ite_self]
  · rfl

/-- **A constraint that is not a number is charged like one that is zero.** -/
lemma PenaltyFunction.penalty_numberOrZero (p : PenaltyFunction σ) (g : Point) :
    p.penalty (g.map numberOrZero) = p.penalty g := by
  rw [penalty, penalty, totalCharge, totalCharge, List.foldl_map]
  simp only [violation_numberOrZero]

/-- **What an evaluation makes of values that are not numbers.** -/
structure Evaluation.OverlooksUnknown (p : PenaltyFunction σ) (e : Evaluation) : Prop where
  /-- The penalty is a number, whatever the constraints are. -/
  zero_le_penalty : 0.0 ≤ p.penalty e.constraints
  /-- A constraint that is not a number might as well be zero. -/
  augmented_eq : e.augmented = e.objective + p.penalty (e.constraints.map numberOrZero)
  /-- The augmented value is not a number where the objective is none, and where an objective and a
  penalty that are infinite cancel out. -/
  isNaN_augmented_iff : e.augmented.isNaN = true ↔ e.objective.isNaN = true ∨
    e.objective.isInf = true ∧ e.objective < 0.0 ∧ (p.penalty e.constraints).isInf = true

/-- **No constraint makes an augmented value something else than a number**, unless its charge and
the objective are infinite. -/
theorem PenaltyFunction.overlooksUnknown_combine (hmu : 0.0 < p.mu) (f : Float) (g : Point) :
    (p.combine f g).OverlooksUnknown p where
  zero_le_penalty := p.zero_le_penalty_of_pos hmu g
  augmented_eq := congrArg (f + ·) (p.penalty_numberOrZero g).symm
  isNaN_augmented_iff := by
    have hpenalty := p.zero_le_penalty_of_pos hmu g
    show (f + p.penalty g).isNaN = true ↔ f.isNaN = true ∨
      f.isInf = true ∧ f < 0.0 ∧ (p.penalty g).isInf = true
    rcases hf : f.isNaN with _ | _
    · rw [isNaN_add_iff_of_zero_le hf hpenalty, or_iff_right Bool.false_ne_true]
    · exact iff_of_true (isNaN_add (Or.inl hf)) (Or.inl rfl)

lemma Vertex.Consistent.overlooks (hmu : 0.0 < p.mu) {v : Vertex} (hv : v.Consistent p) :
    v.found.OverlooksUnknown p := by
  rw [hv.found]
  exact p.overlooksUnknown_combine hmu _ _

/-! ## Visited states -/

/-- **What a state makes of values that are not numbers.** -/
structure Search.OverlooksUnknown (p : PenaltyFunction σ) (n : ℕ) (s : Search) (j : Journal σ) :
    Prop where
  found : ∀ v ∈ s.simplex, v.found.OverlooksUnknown p
  /-- Where the objective is not a number, the vertex ranks behind every number. -/
  ranked_last : ∀ u ∈ s.simplex, u.found.objective.isNaN = true →
    ∀ v ∈ s.simplex, v.augmented.isNaN = false → rankCmp v.augmented u.augmented = .lt
  /-- A vertex that ranks behind is not recorded as long as there is a number. -/
  recorded : ∀ s' j', (iterate p n s).exec j = (.ok s', j') →
    (∃ v ∈ s.simplex, v.augmented.isNaN = false) →
    ∃ v ∈ s.simplex, v.augmented.isNaN = false ∧ v.found.objective.isNaN = false ∧
      ∃ best, s'.trace.rows = s.trace.rows.push ⟨v.sample, best, s.evaluations⟩

lemma Standing.Describes.isNaN_best {t : Standing} {s : Simplex} (h : t.Describes n s)
    (hnumber : ∃ v ∈ s, v.augmented.isNaN = false) : t.best.augmented.isNaN = false := by
  obtain ⟨v, hv, hnum⟩ := hnumber
  exact (isNaN_eq_false_iff _).mpr ((h.best_le v hv).trans ((isNaN_eq_false_iff _).mp hnum))

/-- **Every visited state** overlooks constraints that are not numbers, and nothing else. -/
theorem Search.Visits.overlooksUnknown_state (hmu : 0.0 < p.mu) (hn : 0 < n)
    (hpoints : points.length = n + 1) {s : Search} (h : Visits p n points maxIter j₀ k s j) :
    s.OverlooksUnknown p n j := by
  obtain ⟨vs, hprogress⟩ := Progress.of_visits hn hpoints h
  have hfound : ∀ v ∈ s.simplex, v.found.OverlooksUnknown p := fun v hv =>
    (hprogress.consistent v (hprogress.simplex_subset hv)).overlooks hmu
  refine ⟨hfound, ?_, ?_⟩
  · intro u hu hobjective v hv hnum
    have hnan : u.augmented.isNaN = true := (hfound u hu).isNaN_augmented_iff.mpr (Or.inl hobjective)
    have hle := (isNaN_eq_false_iff _).mp hnum
    rw [rankCmp_eq_lt_iff, rankKey_of_isNaN hnan]
    omega
  · intro s' j' hiterate hnumber
    obtain ⟨t, m, ws, j₁, hdecides, -, -, -, rfl⟩ := next_of_exec hiterate
    have hd := Simplex.describes_of_standing hn (hprogress.length_simplex.trans hpoints) hdecides.1
    have hbest := hd.isNaN_best hnumber
    refine ⟨t.best, hd.best_mem, hbest, ?_, _, rfl⟩
    refine Bool.eq_false_of_not_eq_true fun hobjective => ?_
    have hnan : t.best.augmented.isNaN = true :=
      (hfound _ hd.best_mem).isNaN_augmented_iff.mpr (Or.inl hobjective)
    rw [hbest] at hnan
    cases hnan

/-- **Constraints that are not numbers are overlooked**, in every evaluation that succeeds and in
every state that a search visits.  Objectives that are not numbers are not. -/
theorem PenaltyFunction.overlooksUnknown (p : PenaltyFunction σ) (hmu : 0.0 < p.mu) :
    (∀ x j e j', (p.evaluate x).exec j = (.ok e, j') → e.OverlooksUnknown p) ∧
      ∀ n points maxIter j₀ k s j, 0 < n → points.length = n + 1 →
        Search.Visits p n points maxIter j₀ k s j → s.OverlooksUnknown p n j := by
  constructor
  · intro x j e j' he
    have hv : (Vertex.evaluate p x).exec j = (.ok ⟨x, e⟩, j') :=
      Run.exec_bind_eq_ok.mpr ⟨e, j', he, rfl⟩
    obtain ⟨-, hevaluated⟩ := evaluated_of_exec hv
    exact (hevaluated.consistent _ List.mem_cons_self).overlooks hmu
  · intro n points maxIter j₀ k s j hn hpoints hvisits
    exact hvisits.overlooksUnknown_state hmu hn hpoints

/-! ## A search behind a veil -/

/-- The square of a number, with a constraint that is a number only from two on. -/
def veiled : Problem Unit where
  objective := .ofPoint fun x => .ok (squareValue x)
  x0 := [1.0]
  bounds := square.bounds
  constraints := [.blackBox (.ofPoint fun x => .ok (if x.getD 0 0.0 < 2.0 then 0.0 / 0.0 else -1.0))]
  x0_ne_nil := square.x0_ne_nil
  length_bounds := square.length_bounds
  agrees_objective := by decide
  agrees_constraint := by decide

/-- The square with the penalty of the default options. -/
def veiledPenalty : PenaltyFunction Unit :=
  ⟨veiled.objective, veiled.constraints, .l2, 100.0, squarePenalty.isFiniteNonneg_mu⟩

/-- A vertex on each side of the veil. -/
def acrossVeil : Simplex := [⟨[3.0], ⟨9.0, 9.0, [-1.0]⟩⟩, ⟨[1.0], ⟨1.0, 1.0, [0.0 / 0.0]⟩⟩]

lemma visits_acrossVeil :
    ∃ j, Search.Visits veiledPenalty 1 [[3.0], [1.0]] 1 { world := () } 0 ⟨acrossVeil, 2, {}⟩ j := by
  have hfirst : (([[3.0], [1.0]].mapM (Vertex.evaluate veiledPenalty)).execIn ()).1 =
      .ok acrossVeil := by
    decide +kernel
  rcases hexec : ([[3.0], [1.0]].mapM (Vertex.evaluate veiledPenalty)).execIn () with ⟨out, j⟩
  rw [hexec] at hfirst
  obtain rfl : out = .ok acrossVeil := hfirst
  exact ⟨j, Search.visits_first (by decide +kernel) hexec⟩

theorem overlooksUnknown_veiled : 0.0 < veiledPenalty.mu ∧
    (∃ j, Search.Visits veiledPenalty 1 [[3.0], [1.0]] 1 { world := () } 0 ⟨acrossVeil, 2, {}⟩ j ∧
      Search.OverlooksUnknown veiledPenalty 1 ⟨acrossVeil, 2, {}⟩ j) := by
  have hmu : 0.0 < veiledPenalty.mu := by decide +kernel
  obtain ⟨j, hvisits⟩ := visits_acrossVeil
  obtain ⟨-, hstate⟩ := veiledPenalty.overlooksUnknown hmu
  have hlength : [[3.0], [1.0]].length = 1 + 1 := by simp
  exact ⟨hmu, j, hvisits, hstate 1 _ 1 _ 0 _ j one_pos hlength hvisits⟩

/-- **What is overlooked may be recorded**: behind the veil the augmented value is a number, ranks
before a vertex at which everything is a number, and makes the row of the iteration. -/
theorem recorded_behindVeil : 0.0 < veiledPenalty.mu ∧
    (∃ j, Search.Visits veiledPenalty 1 [[3.0], [1.0]] 1 { world := () } 0 ⟨acrossVeil, 2, {}⟩ j) ∧
    ∃ u ∈ acrossVeil, ∃ v ∈ acrossVeil,
      ((∃ g ∈ u.found.constraints, g.isNaN = true) ∧ u.augmented.isNaN = false) ∧
      ((∀ g ∈ v.found.constraints, g.isNaN = false) ∧ v.found.objective.isNaN = false ∧
        v.augmented.isNaN = false) ∧ rankCmp u.augmented v.augmented = .lt ∧
      ∃ r j, (search veiledPenalty 1 [[3.0], [1.0]] 1).execIn () = (.ok r, j) ∧
        r.x.rows = [u.point] ∧ r.g.rows = [u.found.constraints] := by
  refine ⟨by decide +kernel, visits_acrossVeil, ⟨[1.0], ⟨1.0, 1.0, [0.0 / 0.0]⟩⟩,
    List.mem_cons_of_mem _ List.mem_cons_self, ⟨[3.0], ⟨9.0, 9.0, [-1.0]⟩⟩, List.mem_cons_self,
    by decide +kernel, by decide +kernel, by decide +kernel, ?_⟩
  have hrun : ∃ r ∈ ((search veiledPenalty 1 [[3.0], [1.0]] 1).execIn ()).1.toOption,
      r.x.rows = [[1.0]] ∧ r.g.rows = [[0.0 / 0.0]] := by
    decide +kernel
  rcases hexec : (search veiledPenalty 1 [[3.0], [1.0]] 1).execIn () with ⟨e | r', j⟩
  · rw [hexec] at hrun
    obtain ⟨r, hr, -⟩ := hrun
    cases hr
  · rw [hexec] at hrun
    obtain ⟨r, hr, hrows⟩ := hrun
    obtain rfl : r' = r := Option.some.inj hr
    exact ⟨r', j, rfl, hrows⟩

end NelderMead
