import NelderMead.Problem
import NelderMead.Proofs.Parameters
import Mathlib.Tactic.SplitIfs

/-!
# What boxes and problems are built from

The parts of a box or of a problem are looked at in a fixed order, and the first thing that is wrong
is reported.  Nothing is evaluated: of a function only its declared dimension counts.

* `FirstAt` — the first position of a list at which something holds; `firstAt_cons_iff` and
  `find?_eq_some_iff_firstAt` find it.
* `MakeBox`, `BoxFault` — limits that make a box, and what is wrong with others;
  `Bounds.exists_ofLimits_iff` and **`Bounds.ofLimits_eq_error_iff`** say that these are the two ways
  in which building ends.
* `MakeProblem`, `ProblemFault` — the same for the parts of a problem, with `Problem.exists_of_iff`
  and **`Problem.of_eq_error_iff`**.
* `Construction`, **`construction`** — what is built of any parts, or reported of them.
-/

namespace NelderMead

/-! ## The first of a list -/

section First

variable {α β : Type} {P Q : α → Prop} {l : List α} {i k : ℕ} {a b : α}

/-- **Position `i` is the first** of the list `l` at which an entry has the property `P`; `a` is that
entry. -/
structure FirstAt (P : α → Prop) (l : List α) (i : ℕ) (a : α) : Prop where
  entry : l[i]? = some a
  holds : P a
  before : ∀ k < i, ∀ b, l[k]? = some b → ¬P b

lemma FirstAt.mem (h : FirstAt P l i a) : a ∈ l := List.mem_of_getElem? h.entry

/-- The first position is the head, or it is the first of the tail behind a head without the
property. -/
lemma firstAt_cons_iff : FirstAt P (b :: l) i a ↔
    i = 0 ∧ b = a ∧ P b ∨ ¬P b ∧ ∃ k, i = k + 1 ∧ FirstAt P l k a := by
  constructor
  · rintro ⟨hentry, hholds, hbefore⟩
    cases i with
    | zero =>
      obtain rfl : b = a := Option.some.inj hentry
      exact Or.inl ⟨rfl, rfl, hholds⟩
    | succ k =>
      refine Or.inr ⟨hbefore 0 (Nat.succ_pos k) b rfl, k, rfl, hentry, hholds, ?_⟩
      exact fun m hm c hc => hbefore (m + 1) (Nat.succ_lt_succ hm) c hc
  · rintro (⟨rfl, rfl, hb⟩ | ⟨hb, k, rfl, hentry, hholds, hbefore⟩)
    · exact ⟨rfl, hb, fun k hk => absurd hk (Nat.not_lt_zero k)⟩
    · refine ⟨hentry, hholds, fun m hm c hc => ?_⟩
      cases m with
      | zero =>
        obtain rfl : b = c := Option.some.inj hc
        exact hb
      | succ m => exact hbefore m (Nat.lt_of_succ_lt_succ hm) c hc

/-- What some entry has, one of them is the first to have. -/
lemma exists_firstAt_iff : (∃ i a, FirstAt P l i a) ↔ ∃ a ∈ l, P a := by
  constructor
  · rintro ⟨i, a, h⟩
    exact ⟨a, h.mem, h.holds⟩
  · rintro ⟨a, ha, hPa⟩
    induction l with
    | nil => cases ha
    | cons b l ih =>
      by_cases hb : P b
      · exact ⟨0, b, firstAt_cons_iff.mpr (Or.inl ⟨rfl, rfl, hb⟩)⟩
      · have htail : a ∈ l := (List.mem_cons.mp ha).resolve_left fun heq => hb (heq ▸ hPa)
        obtain ⟨k, c, h⟩ := ih htail
        exact ⟨k + 1, c, firstAt_cons_iff.mpr (Or.inr ⟨hb, k, rfl, h⟩)⟩

/-- Only the entries of the list matter. -/
lemma FirstAt.congr (hPQ : ∀ c ∈ l, P c ↔ Q c) (h : FirstAt P l i a) : FirstAt Q l i a where
  entry := h.entry
  holds := (hPQ a h.mem).mp h.holds
  before k hk b hb := fun hQ => h.before k hk b hb ((hPQ b (List.mem_of_getElem? hb)).mpr hQ)

/-- The first position of a mapped list. -/
lemma firstAt_map_iff {f : β → α} {l : List β} :
    FirstAt P (l.map f) i a ↔ ∃ b, FirstAt (fun c => P (f c)) l i b ∧ f b = a := by
  constructor
  · rintro ⟨hentry, hholds, hbefore⟩
    rw [List.getElem?_map, Option.map_eq_some_iff] at hentry
    obtain ⟨b, hb, rfl⟩ := hentry
    refine ⟨b, ⟨hb, hholds, fun k hk c hc => hbefore k hk (f c) ?_⟩, rfl⟩
    rw [List.getElem?_map, hc, Option.map_some]
  · rintro ⟨b, ⟨hentry, hholds, hbefore⟩, rfl⟩
    refine ⟨by rw [List.getElem?_map, hentry, Option.map_some], hholds, fun k hk c hc => ?_⟩
    rw [List.getElem?_map, Option.map_eq_some_iff] at hc
    obtain ⟨d, hd, rfl⟩ := hc
    exact hbefore k hk d hd

/-- **Searching a list** finds the first entry. -/
lemma find?_eq_some_iff_firstAt {p : α → Bool} :
    l.find? p = some a ↔ ∃ i, FirstAt (fun c => p c = true) l i a := by
  induction l with
  | nil =>
    refine iff_of_false (nomatch ·) ?_
    rintro ⟨_, h⟩
    cases h.mem
  | cons b l ih =>
    simp only [firstAt_cons_iff]
    rw [List.find?_cons]
    cases hb : p b with
    | true => simp
    | false => simp [ih]

end First

/-! ## Boxes -/

/-- Two limits that are finite and in order. -/
def InOrder (l u : Float) : Prop := l.isFinite = true ∧ u.isFinite = true ∧ l ≤ u

lemma isInterval_iff {l u : Float} : isInterval l u = true ↔ InOrder l u := by
  rw [isInterval, Bool.and_eq_true, Bool.and_eq_true, and_assoc, Bool.not_eq_true',
    decide_eq_false_iff_not, InOrder]
  refine and_congr_right fun hl => and_congr_right fun hu => ?_
  have hlnum := Binary64.isNaN_of_isFinite hl
  have hunum := Binary64.isNaN_of_isFinite hu
  rw [Binary64.lt_iff, Binary64.le_iff, and_iff_right hlnum, and_iff_right hunum,
    and_iff_right hunum, and_iff_right hlnum, not_lt]

/-- **Limits that make a box**: as many upper limits as lower ones, one at least, and each pair
finite and in order. -/
structure MakeBox (lower upper : Point) : Prop where
  length_eq : upper.length = lower.length
  ne_nil : lower ≠ []
  inOrder : ∀ (i : ℕ) (l u : Float), lower[i]? = some l → upper[i]? = some u → InOrder l u

/-- **What is wrong** with some limits. -/
inductive BoxFault (lower upper : Point) : SolverError → Prop
  | length (differ : upper.length ≠ lower.length) :
      BoxFault lower upper (.dimensionMismatch .upperBounds lower.length upper.length)
  | empty (length_eq : upper.length = lower.length) (nil : lower = []) :
      BoxFault lower upper .invalidDimension
  | pair (length_eq : upper.length = lower.length) {i : ℕ} {l u : Float}
      (first : FirstAt (fun p => ¬InOrder p.1 p.2) (lower.zip upper) i (l, u)) :
      BoxFault lower upper (.invalidBounds i l u)

namespace Bounds

variable {lower upper : Point} {b : Bounds} {e : SolverError}

/-- The first bad pair, with positions counted from `i`. -/
lemma firstBad?_eq_some_iff {ps : List (Float × Float)} {i k : ℕ} {l u : Float} :
    firstBad? i ps = some (k, l, u) ↔
      ∃ m, k = i + m ∧ FirstAt (fun p => ¬InOrder p.1 p.2) ps m (l, u) := by
  induction ps generalizing i with
  | nil =>
    refine iff_of_false (nomatch ·) ?_
    rintro ⟨_, -, h⟩
    cases h.mem
  | cons p ps ih =>
    obtain ⟨l', u'⟩ := p
    simp only [firstAt_cons_iff]
    rw [firstBad?, ← isInterval_iff]
    split_ifs with hgood
    · rw [ih]
      constructor
      · rintro ⟨m, rfl, h⟩
        exact ⟨m + 1, by omega, Or.inr ⟨fun hbad => hbad hgood, m, rfl, h⟩⟩
      · rintro ⟨_, rfl, ⟨-, -, hbad⟩ | ⟨-, m, rfl, h⟩⟩
        · exact absurd hgood hbad
        · exact ⟨m, by omega, h⟩
    · constructor
      · rintro ⟨⟩
        exact ⟨0, rfl, Or.inl ⟨rfl, rfl, hgood⟩⟩
      · rintro ⟨_, rfl, ⟨rfl, ⟨⟩, -⟩ | ⟨hnot, -⟩⟩
        · rfl
        · exact absurd hgood hnot

lemma makeBox (b : Bounds) : MakeBox b.lower b.upper where
  length_eq := b.length_upper
  ne_nil := b.lower_ne_nil
  inOrder i l u hl hu := by
    have hpair : (b.lower.zip b.upper)[i]? = some (l, u) := List.getElem?_zip_eq_some.mpr ⟨hl, hu⟩
    exact isInterval_iff.mp (b.isInterval_of_mem (l, u) (List.mem_of_getElem? hpair))

/-- **What is reported of limits** is what is wrong with them. -/
theorem ofLimits_eq_error_iff : ofLimits lower upper = .error e ↔ BoxFault lower upper e := by
  constructor
  · intro h
    rw [ofLimits] at h
    split_ifs at h with hlength hnil
    · obtain rfl := Except.error.inj h
      exact .empty hlength hnil
    · split at h
      · rename_i i l u hbad
        obtain rfl := Except.error.inj h
        obtain ⟨m, rfl, hfirst⟩ := firstBad?_eq_some_iff.mp hbad
        rw [Nat.zero_add]
        exact .pair hlength hfirst
      · cases h
    · obtain rfl := Except.error.inj h
      exact .length hlength
  · rintro (hlength | ⟨hlength, hnil⟩ | @⟨hlength, i, l, u, hfirst⟩)
    · rw [ofLimits, dif_neg hlength]
    · rw [ofLimits, dif_pos hlength, dif_pos hnil]
    · have hnil : lower ≠ [] := by
        rintro rfl
        exact nomatch hfirst.mem
      have hbad : firstBad? 0 (lower.zip upper) = some (i, l, u) :=
        firstBad?_eq_some_iff.mpr ⟨i, (Nat.zero_add i).symm, hfirst⟩
      rw [ofLimits, dif_pos hlength, dif_neg hnil]
      split
      · rename_i hfound
        rw [hbad] at hfound
        cases hfound
        rfl
      · rename_i hnone
        rw [hbad] at hnone
        cases hnone

/-- Limits that make a box have no fault. -/
lemma not_boxFault (h : MakeBox lower upper) : ¬BoxFault lower upper e := by
  rintro (hlength | ⟨hlength, hnil⟩ | @⟨hlength, i, l, u, hfirst⟩)
  · exact hlength h.length_eq
  · exact h.ne_nil hnil
  · obtain ⟨hl, hu⟩ := List.getElem?_zip_eq_some.mp hfirst.entry
    exact hfirst.holds (h.inOrder i l u hl hu)

lemma limits_of_ofLimits (h : ofLimits lower upper = .ok b) : b.lower = lower ∧ b.upper = upper := by
  rw [ofLimits] at h
  split_ifs at h
  split at h
  · cases h
  · obtain rfl := Except.ok.inj h
    exact ⟨rfl, rfl⟩

/-- **A box is built** of the limits that make one. -/
theorem exists_ofLimits_iff : (∃ b, ofLimits lower upper = .ok b) ↔ MakeBox lower upper := by
  constructor
  · rintro ⟨b, h⟩
    obtain ⟨rfl, rfl⟩ := limits_of_ofLimits h
    exact b.makeBox
  · intro hmake
    rcases hof : ofLimits lower upper with e | b
    · exact absurd (ofLimits_eq_error_iff.mp hof) (not_boxFault hmake)
    · exact ⟨b, rfl⟩

end Bounds

/-! ## Problems -/

variable {σ : Type}

/-- The constraint declares another dimension than `n`. -/
def Constraint.Differs (n : ℕ) (c : Constraint σ) : Prop := ∃ d, c.dimension = some d ∧ d ≠ n

section Parts

variable (objective : BlackBox σ) (x0 : Point) (bounds : Bounds) (constraints : List (Constraint σ))

/-- **Parts that make a problem**: a starting point with a coordinate at least, and its dimension
wherever one is declared. -/
structure MakeProblem : Prop where
  ne_nil : x0 ≠ []
  length_bounds : bounds.length = x0.length
  objective : ∀ d, objective.dimension = some d → d = x0.length
  constraints : ∀ c ∈ constraints, ∀ d, c.dimension = some d → d = x0.length

/-- **What is wrong** with some parts. -/
inductive ProblemFault : SolverError → Prop
  | start (nil : x0 = []) : ProblemFault .invalidDimension
  | bounds (ne_nil : x0 ≠ []) (differ : bounds.length ≠ x0.length) :
      ProblemFault (.dimensionMismatch .bounds x0.length bounds.length)
  | objective (ne_nil : x0 ≠ []) (length_bounds : bounds.length = x0.length) {d : ℕ}
      (declared : objective.dimension = some d) (differ : d ≠ x0.length) :
      ProblemFault (.dimensionMismatch .objective x0.length d)
  | constraint (ne_nil : x0 ≠ []) (length_bounds : bounds.length = x0.length)
      (agrees : ∀ d, objective.dimension = some d → d = x0.length) {i d : ℕ} {c : Constraint σ}
      (first : FirstAt (Constraint.Differs x0.length) constraints i c)
      (declared : c.dimension = some d) :
      ProblemFault (.dimensionMismatch (.constraint i) x0.length d)

end Parts

namespace Problem

variable {objective : BlackBox σ} {x0 : Point} {bounds : Bounds} {constraints : List (Constraint σ)}
  {q : Problem σ} {e : SolverError}

/-- The first constraint of another dimension, with positions counted from `i`. -/
lemma firstMismatch?_eq_some_iff {n i k d : ℕ} {cs : List (Constraint σ)} :
    firstMismatch? n i cs = some (k, d) ↔
      ∃ m c, k = i + m ∧ FirstAt (Constraint.Differs n) cs m c ∧ c.dimension = some d := by
  induction cs generalizing i with
  | nil =>
    refine iff_of_false (nomatch ·) ?_
    rintro ⟨_, _, _, h, -⟩
    cases h.mem
  | cons c cs ih =>
    have hskip : ¬c.Differs n → (firstMismatch? n (i + 1) cs = some (k, d) ↔
        ∃ m c', k = i + m ∧ FirstAt (Constraint.Differs n) (c :: cs) m c' ∧
          c'.dimension = some d) := by
      intro hagrees
      rw [ih]
      constructor
      · rintro ⟨m, c', rfl, hfirst, hd⟩
        refine ⟨m + 1, c', by omega, firstAt_cons_iff.mpr (Or.inr ⟨hagrees, m, rfl, hfirst⟩), hd⟩
      · rintro ⟨_, c', rfl, hfirst, hd⟩
        rcases firstAt_cons_iff.mp hfirst with ⟨-, -, hdiffers⟩ | ⟨-, m, rfl, hrest⟩
        · exact absurd hdiffers hagrees
        · exact ⟨m, c', by omega, hrest, hd⟩
    rw [firstMismatch?]
    split
    · rename_i hnone
      apply hskip
      rintro ⟨d', hd', -⟩
      cases hnone.symm.trans hd'
    · rename_i d' hd'
      split_ifs with heq
      · apply hskip
        rintro ⟨d'', hd'', hne⟩
        exact hne ((Option.some.inj (hd''.symm.trans hd')).trans heq)
      · constructor
        · rintro ⟨⟩
          exact ⟨0, c, rfl, firstAt_cons_iff.mpr (Or.inl ⟨rfl, rfl, _, hd', heq⟩), hd'⟩
        · rintro ⟨_, c', rfl, hfirst, hd⟩
          rcases firstAt_cons_iff.mp hfirst with ⟨rfl, rfl, -⟩ | ⟨hnot, -⟩
          · rw [Nat.add_zero, Option.some.inj (hd'.symm.trans hd)]
          · exact absurd ⟨d', hd', heq⟩ hnot

lemma makeProblem (q : Problem σ) : MakeProblem q.objective q.x0 q.bounds q.constraints where
  ne_nil := q.x0_ne_nil
  length_bounds := q.length_bounds
  objective := q.agrees_objective
  constraints := q.agrees_constraint

/-- **What is reported of parts** is what is wrong with them. -/
theorem of_eq_error_iff : Problem.of objective x0 bounds constraints = .error e ↔
    ProblemFault objective x0 bounds constraints e := by
  constructor
  · intro h
    rw [Problem.of] at h
    split_ifs at h with hnil hbounds hobjective
    · obtain rfl := Except.error.inj h
      exact .start hnil
    · split at h
      · rename_i i d hfound
        obtain rfl := Except.error.inj h
        obtain ⟨m, c, rfl, hfirst, hd⟩ := firstMismatch?_eq_some_iff.mp hfound
        rw [Nat.zero_add]
        exact .constraint hnil hbounds hobjective hfirst hd
      · cases h
    · obtain rfl := Except.error.inj h
      obtain ⟨d, hdiffers⟩ := not_forall.mp hobjective
      obtain ⟨hd, hne⟩ := Classical.not_imp.mp hdiffers
      rw [hd, Option.getD_some]
      exact .objective hnil hbounds hd hne
    · obtain rfl := Except.error.inj h
      exact .bounds hnil hbounds
  · intro h
    cases h with
    | start hnil => rw [Problem.of, dif_pos hnil]
    | bounds hnil hbounds => rw [Problem.of, dif_neg hnil, dif_neg hbounds]
    | objective hnil hbounds hd hne =>
      have hobjective : ¬Agrees x0.length objective.dimension := fun h => hne (h _ hd)
      rw [Problem.of, dif_neg hnil, dif_pos hbounds, dif_neg hobjective, hd, Option.getD_some]
    | @constraint hnil hbounds hobjective i d c hfirst hd =>
      have hagrees : Agrees x0.length objective.dimension := hobjective
      have hfound : firstMismatch? x0.length 0 constraints = some (i, d) :=
        firstMismatch?_eq_some_iff.mpr ⟨i, c, (Nat.zero_add i).symm, hfirst, hd⟩
      rw [Problem.of, dif_neg hnil, dif_pos hbounds, dif_pos hagrees]
      split
      · rename_i hfound'
        rw [hfound] at hfound'
        cases hfound'
        rfl
      · rename_i hnone
        rw [hfound] at hnone
        cases hnone

/-- Parts that make a problem have no fault. -/
lemma not_problemFault (h : MakeProblem objective x0 bounds constraints) :
    ¬ProblemFault objective x0 bounds constraints e := by
  intro hfault
  cases hfault with
  | start hnil => exact h.ne_nil hnil
  | bounds hnil hbounds => exact hbounds h.length_bounds
  | objective hnil hbounds hd hne => exact hne (h.objective _ hd)
  | constraint hnil hbounds hobjective hfirst hd =>
    obtain ⟨d, hd, hne⟩ := hfirst.holds
    exact hne (h.constraints _ hfirst.mem d hd)

lemma parts_of_of (h : Problem.of objective x0 bounds constraints = .ok q) :
    q.objective = objective ∧ q.x0 = x0 ∧ q.bounds = bounds ∧ q.constraints = constraints := by
  rw [Problem.of] at h
  split_ifs at h
  split at h
  · cases h
  · obtain rfl := Except.ok.inj h
    exact ⟨rfl, rfl, rfl, rfl⟩

/-- **A problem is built** of the parts that make one. -/
theorem exists_of_iff : (∃ q, Problem.of objective x0 bounds constraints = .ok q) ↔
    MakeProblem objective x0 bounds constraints := by
  constructor
  · rintro ⟨q, h⟩
    obtain ⟨rfl, rfl, rfl, rfl⟩ := parts_of_of h
    exact q.makeProblem
  · intro hmake
    rcases hof : Problem.of objective x0 bounds constraints with e | q
    · exact absurd (of_eq_error_iff.mp hof) (not_problemFault hmake)
    · exact ⟨q, rfl⟩

/-- A fault shows in the declared dimensions. -/
lemma problemFault_of_dimensions {objective' : BlackBox σ} {constraints' : List (Constraint σ)}
    (hobjective : objective'.dimension = objective.dimension)
    (hconstraints : constraints'.map Constraint.dimension = constraints.map Constraint.dimension)
    (h : ProblemFault objective x0 bounds constraints e) :
    ProblemFault objective' x0 bounds constraints' e := by
  cases h with
  | start hnil => exact .start hnil
  | bounds hnil hbounds => exact .bounds hnil hbounds
  | objective hnil hbounds hd hne => exact .objective hnil hbounds (hobjective.trans hd) hne
  | @constraint hnil hbounds hagrees i d c hfirst hd =>
    have hdimensions : FirstAt (fun declared => ∃ d, declared = some d ∧ d ≠ x0.length)
        (constraints.map Constraint.dimension) i (some d) := firstAt_map_iff.mpr ⟨c, hfirst, hd⟩
    rw [← hconstraints, firstAt_map_iff] at hdimensions
    obtain ⟨c', hfirst', hd'⟩ := hdimensions
    rw [← hobjective] at hagrees
    exact .constraint hnil hbounds hagrees hfirst' hd'

end Problem

/-! ## Building -/

/-- Widths that can be used: no width is negative, and none is not a number. -/
lemma Bounds.width_spec (b : Bounds) : ∀ s ∈ b.width, s.isNaN = false ∧ 0.0 ≤ s := by
  intro s hs
  have hle := Bounds.zero_le_width hs
  exact ⟨((Binary64.zero_le_iff s).mp hle).1, hle⟩

/-- **What comes of building** a box of the limits `lower` and `upper`, and a problem of the other
parts within any box. -/
structure Construction (lower upper : Point) (objective : BlackBox σ) (x0 : Point)
    (constraints : List (Constraint σ)) : Prop where
  box_iff : (∃ b, Bounds.ofLimits lower upper = .ok b) ↔ MakeBox lower upper
  box_fault : ∀ e, Bounds.ofLimits lower upper = .error e ↔ BoxFault lower upper e
  box : ∀ b, Bounds.ofLimits lower upper = .ok b → b.lower = lower ∧ b.upper = upper ∧
    ∀ s ∈ b.width, s.isNaN = false ∧ 0.0 ≤ s
  problem_iff : ∀ bounds, (∃ q, Problem.of objective x0 bounds constraints = .ok q) ↔
    MakeProblem objective x0 bounds constraints
  problem_fault : ∀ bounds e, Problem.of objective x0 bounds constraints = .error e ↔
    ProblemFault objective x0 bounds constraints e
  problem : ∀ bounds q, Problem.of objective x0 bounds constraints = .ok q →
    q.objective = objective ∧ q.x0 = x0 ∧ q.bounds = bounds ∧ q.constraints = constraints ∧
      ∀ s ∈ q.bounds.width, s.isNaN = false ∧ 0.0 ≤ s
  /-- No function is asked for a value: with any others of the same dimensions the same is
  reported. -/
  unasked : ∀ bounds (objective' : BlackBox σ) (constraints' : List (Constraint σ)),
    objective'.dimension = objective.dimension →
      constraints'.map Constraint.dimension = constraints.map Constraint.dimension →
        ∀ e, Problem.of objective' x0 bounds constraints' = .error e ↔
          Problem.of objective x0 bounds constraints = .error e

/-- **Building accepts what is well-formed** and names the first fault of anything else. -/
theorem construction (lower upper : Point) (objective : BlackBox σ) (x0 : Point)
    (constraints : List (Constraint σ)) :
    Construction lower upper objective x0 constraints where
  box_iff := Bounds.exists_ofLimits_iff
  box_fault _ := Bounds.ofLimits_eq_error_iff
  box b h := by
    obtain ⟨hlower, hupper⟩ := Bounds.limits_of_ofLimits h
    exact ⟨hlower, hupper, b.width_spec⟩
  problem_iff _ := Problem.exists_of_iff
  problem_fault _ _ := Problem.of_eq_error_iff
  problem bounds q h := by
    obtain ⟨hobjective, hx0, hbounds, hconstraints⟩ := Problem.parts_of_of h
    exact ⟨hobjective, hx0, hbounds, hconstraints, q.bounds.width_spec⟩
  unasked bounds objective' constraints' hobjective hconstraints e := by
    rw [Problem.of_eq_error_iff, Problem.of_eq_error_iff]
    exact ⟨Problem.problemFault_of_dimensions hobjective.symm hconstraints.symm,
      Problem.problemFault_of_dimensions hobjective hconstraints⟩

end NelderMead
