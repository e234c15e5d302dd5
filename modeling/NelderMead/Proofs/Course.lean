import NelderMead.Proofs.Stores
import NelderMead.Proofs.Together

/-!
# A run is a search by rows

A run keeps its trace in stores, a search by rows in a list that grows.  Step by step they evaluate
the same vertices and take the same decisions, and the stores show the rows.  In the end they have
the same outcome, faults and failures of functions included, and have left the same journal.

* `Course.Refines` — that the state of a run shows that of a search by rows.
* `Course.coupled_first`, **`Course.coupled_iterate`** — the first state and one iteration.
* `Course.Visits` — that a run is in a state before an iteration; **`Course.Visits.exists_search`** and
  **`Search.Visits.exists_course`** say that the states of the two correspond.
* **`Course.exec_eq_search`** — whole runs.
-/

namespace NelderMead

variable {σ : Type} {p : PenaltyFunction σ} {n m maxIter : ℕ} {points : List Point}

/-- **The state of a run shows that of a search by rows**, which has its shape. -/
structure Course.Refines (c : Course) (n m maxIter : ℕ) (s : Search) : Prop where
  simplex : c.simplex = s.simplex
  evaluations : c.evaluations = s.evaluations
  stores : c.stores.Holds n m maxIter s.trace
  shaped : s.Shaped n m

/-! ## What is evaluated has its shape -/

/-- What takes a slot has the shape of the simplex. -/
lemma Move.Chosen.shaped {i : ℕ} {t : Standing} {mv : Move} {vs : List Vertex} {j j' : Journal σ}
    (h : mv.Chosen i t vs) (hcentroid : t.centroid.length = n) (hvs : Evaluated p vs j j') :
    ∀ v ∈ mv.newcomer, v.sample.Shaped n p.constraintCount := by
  intro v hv
  have hmem := h.newcomer_mem hv
  exact ⟨(h.length_point hmem).trans hcentroid, (hvs.consistent v hmem).length_constraints⟩

/-- So has the first simplex. -/
lemma shaped_of_mapM {vs : Simplex} {j j' : Journal σ} (hlength : points.length = n + 1)
    (hpoints : ∀ x ∈ points, x.length = n)
    (h : (points.mapM (Vertex.evaluate p)).exec j = (.ok vs, j')) :
    Search.Shaped n p.constraintCount ⟨vs, points.length, {}⟩ := by
  obtain ⟨hpoint, hevaluated⟩ := evaluated_of_mapM h
  refine ⟨?_, fun v hv => ⟨?_, (hevaluated.consistent v hv).length_constraints⟩,
    List.forall_mem_nil _⟩
  · rw [← hlength, ← hpoint, List.length_map]
  · exact hpoints _ (hpoint ▸ List.mem_map_of_mem hv)

namespace Course

variable {c : Course} {s : Search}

/-! ## Step by step -/

/-- **An iteration of a run** is one of a search by rows, as long as a row is left. -/
theorem coupled_iterate (hn : 0 < n) (h : c.Refines n p.constraintCount maxIter s)
    (hroom : s.trace.size < maxIter) :
    Run.Coupled Eq Eq (fun c' s' => c'.Refines n p.constraintCount maxIter s' ∧
      s'.trace.size = s.trace.size + 1) (iterate p n c) (Search.iterate p n s) := by
  obtain ⟨simplex, evaluations, stores⟩ := c
  obtain ⟨rfl, rfl, hstores, hshaped⟩ := h
  obtain ⟨t, ht⟩ := hshaped.exists_standing
  have hd := Simplex.describes_of_standing hn hshaped.length_simplex ht
  obtain ⟨stores', hrecord, hstores'⟩ :=
    hstores.record hroom (hshaped.vertex _ hd.best_mem) s.evaluations
  refine .check_left ht (.check_right ht (.check_left hrecord ?_))
  rw [hstores.count_eq]
  have hchosen : ∀ j mv j', (Move.choose p s.trace.size t).exec j = (.ok mv, j') →
      ∀ v ∈ mv.newcomer, v.sample.Shaped n p.constraintCount := by
    intro j mv j' hmv
    obtain ⟨vs, hvs, hevaluated⟩ := chosen_of_exec hmv
    exact hvs.shaped hd.length_centroid hevaluated
  refine (Run.coupled_self hchosen).bind ?_
  rintro mv _ ⟨rfl, hnew⟩
  refine (Run.Coupled.refl (Run.tell mv.event)).bind fun _ _ _ => ?_
  exact .pure ⟨⟨rfl, rfl, hstores', hshaped.next hd hnew⟩, s.trace.size_record _ _⟩

lemma coupled_iterates (hn : 0 < n) (k : ℕ) (h : c.Refines n p.constraintCount maxIter s)
    (hroom : s.trace.size + k ≤ maxIter) :
    Run.Coupled Eq Eq (fun c' s' => c'.Refines n p.constraintCount maxIter s' ∧
      s'.trace.size = s.trace.size + k) (iterates p n k c) (Search.iterates p n k s) := by
  induction k generalizing c s with
  | zero => exact .pure ⟨h, rfl⟩
  | succ k ih =>
    refine (coupled_iterate hn h (by omega)).bind fun c' s' hnext => ?_
    obtain ⟨hrefines, hsize⟩ := hnext
    have hrest := ih hrefines (by omega)
    rwa [hsize, Nat.add_right_comm, Nat.add_assoc] at hrest

/-- There is room for stores if there is for rows. -/
lemma alike_reserve (n m maxIter : ℕ) : Alike (fun st t => st.Holds n m maxIter t ∧ t = {})
    (Stores.reserve n m maxIter) (Trace.reserve n m maxIter) := by
  by_cases hfits : Trace.Fits n m maxIter
  · have hreserve := Stores.reserve_of_fits hfits
    rw [hreserve, Trace.reserve_of_fits hfits]
    exact .ok ⟨Stores.holds_of_reserve hreserve, rfl⟩
  · rw [Stores.reserve, Trace.reserve, if_neg hfits, if_neg hfits]
    exact .error _

/-- **Both begin alike**: with the same vertices, and with as much room. -/
theorem coupled_first (hlength : points.length = n + 1) (hpoints : ∀ x ∈ points, x.length = n)
    (maxIter : ℕ) :
    Run.Coupled Eq Eq (fun c s => c.Refines n p.constraintCount maxIter s ∧ s.trace.size = 0)
      (first p n points maxIter) (Search.first p n points maxIter) := by
  refine (Run.coupled_self fun _ _ _ => shaped_of_mapM hlength hpoints).bind ?_
  rintro vs _ ⟨rfl, hshaped⟩
  refine (Run.Coupled.check (fun _ => rfl) (alike_reserve n p.constraintCount maxIter)).bind ?_
  rintro st _ ⟨hst, rfl⟩
  exact .pure ⟨⟨rfl, rfl, hst, hshaped⟩, rfl⟩

/-- The states before iteration `k` correspond, and one is reached if the other is. -/
lemma coupled_visits (hn : 0 < n) (hlength : points.length = n + 1)
    (hpoints : ∀ x ∈ points, x.length = n) {k : ℕ} (hk : k ≤ maxIter) :
    Run.Coupled Eq Eq (fun c s => c.Refines n p.constraintCount maxIter s ∧ s.trace.size = k)
      (first p n points maxIter >>= iterates p n k)
      (Search.first p n points maxIter >>= Search.iterates p n k) := by
  refine (coupled_first hlength hpoints maxIter).bind fun c s h => ?_
  obtain ⟨hrefines, hsize⟩ := h
  have hiterates := coupled_iterates hn k hrefines (by omega)
  rwa [hsize, Nat.zero_add] at hiterates

/-! ## Visited states -/

/-- **The state before iteration `k`** of a run of `maxIter` iterations that begins with the journal
`j₀`. -/
def Visits (p : PenaltyFunction σ) (n : ℕ) (points : List Point) (maxIter : ℕ) (j₀ : Journal σ)
    (k : ℕ) (c : Course) (j : Journal σ) : Prop :=
  k ≤ maxIter ∧ (first p n points maxIter >>= iterates p n k).exec j₀ = (.ok c, j)

section Visits

variable {j₀ j : Journal σ} {k : ℕ}

/-- **A state of a run shows one of the search by rows.** -/
theorem Visits.exists_search (hn : 0 < n) (hlength : points.length = n + 1)
    (hpoints : ∀ x ∈ points, x.length = n) (h : Visits p n points maxIter j₀ k c j) :
    ∃ s, Search.Visits p n points maxIter j₀ k s j ∧
      c.Refines n p.constraintCount maxIter s := by
  obtain ⟨hk, hc⟩ := h
  obtain ⟨s, hs, hrefines, -⟩ := (coupled_visits hn hlength hpoints hk).exists_right hc
  exact ⟨s, ⟨hk, hs⟩, hrefines⟩

end Visits

/-! ## Whole runs -/

/-- **A run is a search by rows.** -/
theorem exec_eq_search (hn : 0 < n) (hlength : points.length = n + 1)
    (hpoints : ∀ x ∈ points, x.length = n) (maxIter : ℕ) (j : Journal σ) :
    (run p n points maxIter).exec j = (search p n points maxIter).exec j := by
  refine Run.Coupled.exec_eq ?_ j
  rw [run, search, ← bind_assoc, ← bind_assoc]
  refine (coupled_visits hn hlength hpoints le_rfl).bind fun last s h => ?_
  obtain ⟨hrefines, hfull⟩ := h
  refine .check_right (hrefines.stores.ofTrace hfull s.evaluations) ?_
  rw [hrefines.evaluations]
  exact .refl _

end Course

/-- **A state of the search by rows is shown** by one of the run. -/
theorem Search.Visits.exists_course {j₀ j : Journal σ} {k : ℕ} {s : Search} (hn : 0 < n)
    (hlength : points.length = n + 1) (hpoints : ∀ x ∈ points, x.length = n)
    (h : Visits p n points maxIter j₀ k s j) :
    ∃ c, Course.Visits p n points maxIter j₀ k c j ∧ c.Refines n p.constraintCount maxIter s := by
  obtain ⟨hk, hs⟩ := h
  obtain ⟨c, hc, hrefines, -⟩ := (Course.coupled_visits hn hlength hpoints hk).exists_left hs
  exact ⟨c, ⟨hk, hc⟩, hrefines⟩

end NelderMead
