import NelderMead.Proofs.Leading
import NelderMead.Proofs.Penalty
import NelderMead.Proofs.Shape
import NelderMead.Proofs.Unmoved

/-!
# Searches without a number

What an iteration takes into the simplex is less than something there, so a simplex in which nothing
is a number takes nothing and never changes.  A simplex with a number in it keeps one: then the best
vertex of every later row is a number, and so is its objective.  A search is of one kind or the
other from the beginning.

* `Simplex.NoNumber` — that no augmented value of a simplex is a number;
  **`Search.unmoved_of_iterates`** says that it stays as it is.
* `Progress.isNaN_objective` — the rows of a search that begins with a number.
* **`Search.Visits.rows_cases`** — the two kinds of searches.
-/

namespace NelderMead

variable {σ : Type} {p : PenaltyFunction σ} {n k l : ℕ} {points : List Point} {maxIter : ℕ}
  {j₀ j j' : Journal σ}

/-! ## Nothing is a number -/

/-- **No vertex has a number** as its augmented value. -/
def Simplex.NoNumber (s : Simplex) : Prop := ∀ v ∈ s, v.augmented.isNaN = true

instance (s : Simplex) : Decidable s.NoNumber := inferInstanceAs (Decidable (∀ v ∈ s, _))

/-- Nothing is less than what is not a number, and the other way round. -/
lemma Move.Chosen.newcomer_eq_none {i : ℕ} {t : Standing} {m : Move} {vs : List Vertex}
    {s : Simplex} (h : m.Chosen i t vs) (hd : t.Describes n s) (hs : s.NoNumber) :
    m.newcomer = none := by
  have hnot : ∀ {x y : Float}, y.isNaN = true → ¬x < y := fun hy hlt => by
    rw [((Binary64.lt_iff _ _).mp hlt).2.1] at hy
    cases hy
  have hbest := hs _ hd.best_mem
  cases h with
  | reflection reflected above below => exact absurd below (hnot (hs _ hd.secondWorst_mem))
  | expansion reflected expanded best better => exact absurd best (hnot hbest)
  | expansionRejected reflected expanded best notBetter => exact absurd best (hnot hbest)
  | contraction reflected contracted outside notBest better =>
    exact absurd better (hnot (hs _ hd.worst_mem))
  | contractionRejected => rfl

/-- An iteration that takes nothing tried a contraction, which is its second evaluation. -/
lemma Move.Chosen.spent_eq_two_of_newcomer {i : ℕ} {t : Standing} {m : Move} {vs : List Vertex}
    (h : m.Chosen i t vs) (hnew : m.newcomer = none) : m.spent = 2 := by
  cases h with
  | contractionRejected => rfl
  | _ => cases hnew

/-- **A simplex without a number stays as it is.** -/
theorem Search.unmoved_of_iterates {s t : Search} {st : Standing} (hn : 0 < n)
    (hlen : s.simplex.length = n + 1) (hs : s.simplex.NoNumber)
    (hst : s.simplex.standing n = .ok st) (h : (iterates p n l s).exec j = (.ok t, j')) :
    Unmoved st s l t := by
  have hd := Simplex.describes_of_standing hn hlen hst
  induction l generalizing t j' with
  | zero =>
    obtain ⟨rfl, rfl⟩ := Run.exec_pure_eq_ok.mp h
    exact .refl st s
  | succ l ih =>
    obtain ⟨u, j₁, hu, hlast⟩ := exec_iterates_add.mp h
    obtain ⟨u', j₂, hnext, hpure⟩ := Run.exec_bind_eq_ok.mp hlast
    obtain ⟨rfl, rfl⟩ := Run.exec_pure_eq_ok.mp hpure
    have hunmoved := ih hu
    obtain ⟨st', m, ws, j₃, hdecides, hchosen, -, -, rfl⟩ := next_of_exec hnext
    -- the simplex is the first one, and so is the standing
    have hst' := hdecides.1
    rw [hunmoved.simplex] at hst'
    obtain rfl := Except.ok.inj (hst.symm.trans hst')
    have hnew := hchosen.newcomer_eq_none hd hs
    exact hunmoved.next hnew (hchosen.spent_eq_two_of_newcomer hnew)

/-! ## Something is a number -/

namespace Progress

variable {vs : List Vertex} {s : Search}

lemma exists_number (h : Progress p n points j₀ k vs s j)
    (hfirst : ∃ v ∈ vs.take points.length, v.augmented.isNaN = false) :
    ∃ v ∈ s.simplex, v.augmented.isNaN = false := by
  induction h with
  | first points_eq =>
    rwa [← points_eq, List.length_map, List.take_length] at hfirst
  | iterate before describes chosen evaluated ih =>
    rw [before.take_append] at hfirst
    obtain ⟨v, hv, hnum⟩ := ih hfirst
    obtain ⟨v', hv', hle⟩ := (Search.noWorse_next describes chosen).exists_le hv
    exact ⟨v', hv', (isNaN_eq_false_iff _).mpr (hle.trans ((isNaN_eq_false_iff _).mp hnum))⟩

/-- **With a number in the first simplex**, the objective of every row is a number. -/
theorem isNaN_objective (h : Progress p n points j₀ k vs s j)
    (hfirst : ∃ v ∈ vs.take points.length, v.augmented.isNaN = false) :
    ∀ row ∈ s.trace.rows.toList, row.current.objective.isNaN = false := by
  induction h with
  | first => exact List.forall_mem_nil _
  | iterate before describes chosen evaluated ih =>
    rw [before.take_append] at hfirst
    rw [Search.rows_next]
    refine List.forall_mem_append.mpr ⟨ih hfirst, List.forall_mem_singleton.mpr ?_⟩
    obtain ⟨v, hv, hnum⟩ := before.exists_number hfirst
    have hle := (describes.best_le v hv).trans ((isNaN_eq_false_iff _).mp hnum)
    have hbest := (isNaN_eq_false_iff _).mpr hle
    rw [← before.augmentedOf_sample (before.simplex_subset describes.best_mem)] at hbest
    exact ((Binary64.le_iff _ _).mp (PenaltyFunction.objective_le_augmented hbest)).1

/-- The state before the first iteration. -/
lemma eq_first (h : Progress p n points j₀ 0 vs s j) :
    s = ⟨vs, points.length, {}⟩ ∧ vs.length = points.length := by
  cases h with
  | first points_eq =>
    rw [← points_eq, List.length_map]
    exact ⟨rfl, rfl⟩

end Progress

/-! ## The two kinds of searches -/

/-- **Either all rows show one and the same sample**, or the objectives of all rows are numbers. -/
theorem Search.Visits.rows_cases {s : Search} (hn : 0 < n) (hpoints : points.length = n + 1)
    (hdim : ∀ x ∈ points, x.length = n) (h : Visits p n points maxIter j₀ k s j) :
    (∃ y, ∀ row ∈ s.trace.rows.toList, row.current = y) ∨
      ∀ row ∈ s.trace.rows.toList, row.current.objective.isNaN = false := by
  obtain ⟨u, ju, hu, hrest⟩ := h.split (Nat.zero_le k)
  obtain ⟨vs, hfirst⟩ := Progress.of_visits hn hpoints hu
  obtain ⟨rfl, hlength⟩ := hfirst.eq_first
  have hlen : vs.length = n + 1 := hlength.trans hpoints
  by_cases hnum : ∃ v ∈ vs, v.augmented.isNaN = false
  · obtain ⟨ws, hprogress⟩ := hfirst.of_iterates hn hpoints hrest
    refine Or.inr (hprogress.isNaN_objective ?_)
    rwa [hfirst.take_append, ← hlength, List.take_length]
  · have hs : Simplex.NoNumber vs := by simpa [Simplex.NoNumber] using hnum
    obtain ⟨st, hst⟩ := Simplex.exists_standing hlen (hfirst.length_point hdim)
    have hunmoved := unmoved_of_iterates hn hlen hs hst hrest
    refine Or.inl ⟨st.best.sample, fun row hrow => ?_⟩
    rw [hunmoved.rows] at hrow
    obtain ⟨i, -, rfl⟩ := List.mem_map.mp hrow
    rfl

end NelderMead
