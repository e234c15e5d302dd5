import NelderMead.Proofs.Iteration

/-!
# Runs

A run evaluates the points of its first simplex and then iterates.  Its states are those before each
iteration and the one after the last; a run that fails has some of them, too.  Their traces are read
by rows.

* `Search.Visits` — that a run is in a state before an iteration; `Visits.split` and
  `Visits.unique` say that there is one such state for each iteration up to the one reached, and
  `Visits.extend` that iterations lead to further ones.
* `Progress` — how a run gets from state to state, with all vertices evaluated so far;
  **`Progress.of_visits`** says that every visited state is one of these.
* `Progress.simplex_subset`, `Progress.calls` and their neighbours — what holds in every state.
* `SearchResult.Shows`, `ofTrace_eq_ok_iff` — the result that is read off the rows of a trace.
* **`visits_of_search`** — a run that succeeds.
-/

namespace NelderMead

variable {σ : Type} {p : PenaltyFunction σ} {n : ℕ} {points : List Point} {maxIter : ℕ}

/-! ## Visited states -/

namespace Search

/-- **The state before iteration `k`** of a run of `maxIter` iterations that begins with the journal
`j₀`, by rows.  The state before iteration `maxIter` is that after the last.  `Course.Visits` is the
same with stores, and its states and these show each other. -/
def Visits (p : PenaltyFunction σ) (n : ℕ) (points : List Point) (maxIter : ℕ) (j₀ : Journal σ)
    (k : ℕ) (s : Search) (j : Journal σ) : Prop :=
  k ≤ maxIter ∧ (first p n points maxIter >>= iterates p n k).exec j₀ = (.ok s, j)

variable {s t u : Search} {j j' j'' j₀ : Journal σ} {k l : ℕ}

lemma iterates_add (k l : ℕ) (s : Search) :
    iterates p n (k + l) s = iterates p n k s >>= iterates p n l := by
  induction k generalizing s with
  | zero =>
    rw [Nat.zero_add]
    exact (pure_bind s _).symm
  | succ k ih =>
    rw [Nat.succ_add]
    show iterate p n s >>= iterates p n (k + l) =
      (iterate p n s >>= iterates p n k) >>= iterates p n l
    rw [bind_assoc]
    exact congrArg (iterate p n s >>= ·) (funext ih)

lemma exec_iterates_add :
    (iterates p n (k + l) s).exec j = (.ok t, j') ↔
      ∃ u j'', (iterates p n k s).exec j = (.ok u, j'') ∧
        (iterates p n l u).exec j'' = (.ok t, j') := by
  rw [iterates_add]
  exact Run.exec_bind_eq_ok

lemma Visits.split (h : Visits p n points maxIter j₀ k t j') (hle : l ≤ k) :
    ∃ u j'', Visits p n points maxIter j₀ l u j'' ∧
      (iterates p n (k - l) u).exec j'' = (.ok t, j') := by
  obtain ⟨hk, h⟩ := h
  obtain ⟨s, j, hfirst, h⟩ := Run.exec_bind_eq_ok.mp h
  rw [← Nat.add_sub_cancel' hle, exec_iterates_add] at h
  obtain ⟨u, j'', hu, hlast⟩ := h
  exact ⟨u, j'', ⟨hle.trans hk, Run.exec_bind_eq_ok.mpr ⟨s, j, hfirst, hu⟩⟩, hlast⟩

/-- Iterations from a visited state lead to visited states. -/
lemma Visits.extend (h : Visits p n points maxIter j₀ k s j)
    (hrun : (iterates p n l s).exec j = (.ok t, j')) (hle : k + l ≤ maxIter) :
    Visits p n points maxIter j₀ (k + l) t j' := by
  obtain ⟨first, j₁, hfirst, hs⟩ := Run.exec_bind_eq_ok.mp h.2
  exact ⟨hle, Run.exec_bind_eq_ok.mpr ⟨first, j₁, hfirst, exec_iterates_add.mpr ⟨s, j, hs, hrun⟩⟩⟩

/-- A run is in one state before each iteration. -/
lemma Visits.unique (h : Visits p n points maxIter j₀ k s j)
    (h' : Visits p n points maxIter j₀ k t j') : s = t ∧ j = j' := by
  have heq := h.2.symm.trans h'.2
  rw [Prod.mk.injEq, Except.ok.injEq] at heq
  exact heq

end Search

/-! ## How a run gets on -/

/-- **The progress of a run** from the journal `j₀`: the number of its iterations so far, all
vertices it evaluated in order, its state and its journal. -/
inductive Progress (p : PenaltyFunction σ) (n : ℕ) (points : List Point) (j₀ : Journal σ) :
    ℕ → List Vertex → Search → Journal σ → Prop
  | first {vs : List Vertex} {j : Journal σ} (points_eq : vs.map Vertex.point = points)
      (evaluated : Evaluated p vs j₀ j) :
      Progress p n points j₀ 0 vs ⟨vs, points.length, {}⟩ j
  | iterate {k : ℕ} {vs ws : List Vertex} {s : Search} {j j₁ : Journal σ} {t : Standing} {m : Move}
      (before : Progress p n points j₀ k vs s j) (describes : t.Describes n s.simplex)
      (chosen : m.Chosen s.trace.size t ws) (evaluated : Evaluated p ws j j₁) :
      Progress p n points j₀ (k + 1) (vs ++ ws) (s.next t m)
        { j₁ with events := j₁.events.push m.event }

namespace Progress

variable {j₀ j j' : Journal σ} {k l : ℕ} {vs : List Vertex} {s t : Search}

lemma length_simplex (h : Progress p n points j₀ k vs s j) :
    s.simplex.length = points.length := by
  induction h with
  | first points_eq =>
    rw [← points_eq, List.length_map]
  | iterate before describes chosen evaluated ih => exact (Simplex.length_settle ..).trans ih

/-- Further iterations are further progress. -/
lemma of_iterates (hn : 0 < n) (hpoints : points.length = n + 1)
    (h : Progress p n points j₀ k vs s j)
    (hrun : (Search.iterates p n l s).exec j = (.ok t, j')) :
    ∃ ws, Progress p n points j₀ (k + l) (vs ++ ws) t j' := by
  induction l generalizing k vs s j with
  | zero =>
    obtain ⟨rfl, rfl⟩ := Run.exec_pure_eq_ok.mp hrun
    exact ⟨[], by rwa [List.append_nil]⟩
  | succ l ih =>
    obtain ⟨u, j₁, hu, hrest⟩ := Run.exec_bind_eq_ok.mp hrun
    obtain ⟨t', m, ws, j₂, hdecides, hchosen, hevaluated, rfl, rfl⟩ := Search.next_of_exec hu
    have hlen := h.length_simplex.trans hpoints
    have hdescribes := Simplex.describes_of_standing hn hlen hdecides.1
    obtain ⟨ws', hprogress⟩ := ih (h.iterate hdescribes hchosen hevaluated) hrest
    refine ⟨ws ++ ws', ?_⟩
    rwa [← List.append_assoc, ← Nat.add_assoc, Nat.add_right_comm]

/-- **Every visited state is reached by progress.** -/
theorem of_visits (hn : 0 < n) (hpoints : points.length = n + 1)
    (h : Search.Visits p n points maxIter j₀ k s j) :
    ∃ vs, Progress p n points j₀ k vs s j := by
  obtain ⟨first, j₁, hfirst, hrest⟩ := Run.exec_bind_eq_ok.mp h.2
  obtain ⟨simplex, j₂, hsimplex, hfirst⟩ := Run.exec_bind_eq_ok.mp hfirst
  obtain ⟨trace, j₃, hcheck, hfirst⟩ := Run.exec_bind_eq_ok.mp hfirst
  obtain ⟨hreserve, rfl⟩ := Run.exec_check_eq_ok.mp hcheck
  obtain ⟨rfl, rfl⟩ := Run.exec_pure_eq_ok.mp hfirst
  obtain ⟨hpoint, hevaluated⟩ := evaluated_of_mapM hsimplex
  obtain ⟨-, rfl⟩ := Trace.reserve_eq_ok_iff.mp hreserve
  obtain ⟨ws, hprogress⟩ := (first hpoint hevaluated).of_iterates hn hpoints hrest
  exact ⟨simplex ++ ws, by rwa [Nat.zero_add] at hprogress⟩

/-! ### What holds in every state -/

lemma simplex_subset (h : Progress p n points j₀ k vs s j) : s.simplex ⊆ vs := by
  induction h with
  | first => exact List.Subset.refl _
  | iterate before describes chosen evaluated ih =>
    intro v hv
    rcases Simplex.mem_settle hv with hv | hv
    · exact List.mem_append_left _ (ih hv)
    · exact List.mem_append_right _ (chosen.newcomer_mem hv)

lemma consistent (h : Progress p n points j₀ k vs s j) : ∀ v ∈ vs, v.Consistent p := by
  induction h with
  | first points_eq evaluated => exact evaluated.consistent
  | iterate before describes chosen evaluated ih =>
    exact List.forall_mem_append.mpr ⟨ih, evaluated.consistent⟩

/-- The journal holds one block of calls for each evaluated vertex. -/
lemma calls (h : Progress p n points j₀ k vs s j) :
    j.calls.toList = j₀.calls.toList ++ (vs.map Vertex.sample).flatMap Sample.calls := by
  induction h with
  | first points_eq evaluated => exact evaluated.calls
  | iterate before describes chosen evaluated ih =>
    rw [evaluated.calls, ih, List.append_assoc, List.map_append, List.flatMap_append]

lemma evaluations_eq (h : Progress p n points j₀ k vs s j) : s.evaluations = vs.length := by
  induction h with
  | first points_eq =>
    rw [← points_eq, List.length_map]
  | iterate before describes chosen evaluated ih =>
    rw [List.length_append, ← ih, ← chosen.spent_eq]
    rfl

lemma size_trace (h : Progress p n points j₀ k vs s j) : s.trace.size = k := by
  induction h with
  | first => rfl
  | iterate before describes chosen evaluated ih =>
    rw [Search.next, Trace.size_record, ih]

lemma exists_row (h : Progress p n points j₀ k vs s j) {i : ℕ} (hi : i < k) :
    ∃ row, s.trace.rows.toList[i]? = some row := by
  refine ⟨_, List.getElem?_eq_getElem ?_⟩
  rw [Array.length_toList]
  exact hi.trans_eq h.size_trace.symm

/-- The first evaluations are those of the given points. -/
lemma points_prefix (h : Progress p n points j₀ k vs s j) : points <+: vs.map Vertex.point := by
  induction h with
  | first points_eq =>
    rw [points_eq]
  | iterate before describes chosen evaluated ih =>
    rw [List.map_append]
    exact ih.trans (List.prefix_append _ _)

lemma length_point (hdim : ∀ x ∈ points, x.length = n) (h : Progress p n points j₀ k vs s j) :
    ∀ v ∈ vs, v.point.length = n := by
  induction h with
  | first points_eq =>
    intro v hv
    exact hdim _ (points_eq ▸ List.mem_map_of_mem hv)
  | iterate before describes chosen evaluated ih =>
    refine List.forall_mem_append.mpr ⟨ih, fun v hv => ?_⟩
    rw [chosen.length_point hv, describes.length_centroid]

end Progress

/-! ## Results -/

lemma rows_of_ofRows {cols : ℕ} {rows : List Point} {m : Matrix}
    (h : Matrix.ofRows cols rows = .ok m) : m.rows = rows ∧ m.cols = cols := by
  unfold Matrix.ofRows at h
  split at h
  · cases h
  · obtain rfl := Except.ok.inj h
    exact ⟨rfl, rfl⟩

/-- **The columns of a result** are those of the rows of its trace. -/
structure SearchResult.Shows (r : SearchResult) (evaluations : ℕ) (rows : List Row) : Prop where
  evaluations_eq : r.evaluations = evaluations
  iterations_eq : r.iterations = rows.length
  f : r.f = rows.map (·.current.objective)
  g : r.g.rows = rows.map (·.current.constraints)
  x : r.x.rows = rows.map (·.current.point)
  bestF : r.bestF = rows.map (·.best.objective)
  bestG : r.bestG.rows = rows.map (·.best.constraints)
  bestX : r.bestX.rows = rows.map (·.best.point)
  samplesAtIteration : r.samplesAtIteration = rows.map (·.evaluations)

/-- **The result is read off** rows of `n` coordinates and `m` values of constraints. -/
structure SearchResult.ReadOff (r : SearchResult) (n m evaluations : ℕ) (rows : List Row) : Prop
    extends r.Shows evaluations rows where
  ofRows_g : Matrix.ofRows m (rows.map (·.current.constraints)) = .ok r.g
  ofRows_x : Matrix.ofRows n (rows.map (·.current.point)) = .ok r.x
  ofRows_bestG : Matrix.ofRows m (rows.map (·.best.constraints)) = .ok r.bestG
  ofRows_bestX : Matrix.ofRows n (rows.map (·.best.point)) = .ok r.bestX

lemma ofTrace_eq_ok_iff {m evaluations : ℕ} {t : Trace} {r : SearchResult} :
    SearchResult.ofTrace n m evaluations t = .ok r ↔ r.ReadOff n m evaluations t.rows.toList := by
  constructor
  · intro h
    obtain ⟨g, hg, h⟩ := bind_eq_ok_iff.mp h
    obtain ⟨x, hx, h⟩ := bind_eq_ok_iff.mp h
    obtain ⟨bestG, hbestG, h⟩ := bind_eq_ok_iff.mp h
    obtain ⟨bestX, hbestX, h⟩ := bind_eq_ok_iff.mp h
    obtain rfl := Except.ok.inj h
    exact ⟨⟨rfl, rfl, rfl, (rows_of_ofRows hg).1, (rows_of_ofRows hx).1, rfl,
      (rows_of_ofRows hbestG).1, (rows_of_ofRows hbestX).1, rfl⟩, hg, hx, hbestG, hbestX⟩
  · intro h
    refine bind_eq_ok_iff.mpr ⟨r.g, h.ofRows_g, bind_eq_ok_iff.mpr ⟨r.x, h.ofRows_x,
      bind_eq_ok_iff.mpr ⟨r.bestG, h.ofRows_bestG, bind_eq_ok_iff.mpr
        ⟨r.bestX, h.ofRows_bestX, ?_⟩⟩⟩⟩
    rw [← h.iterations_eq, ← h.f, ← h.bestF, ← h.samplesAtIteration, ← h.evaluations_eq]
    rfl

lemma shows_of_ofTrace {m evaluations : ℕ} {t : Trace} {r : SearchResult}
    (h : SearchResult.ofTrace n m evaluations t = .ok r) : r.Shows evaluations t.rows.toList :=
  (ofTrace_eq_ok_iff.mp h).toShows

/-- **A run that succeeds** visits the state after its last iteration and reads its result off the
trace of that state. -/
theorem visits_of_search {j₀ j : Journal σ} {r : SearchResult}
    (h : (search p n points maxIter).exec j₀ = (.ok r, j)) :
    ∃ s j₁, Search.Visits p n points maxIter j₀ maxIter s j₁ ∧ j.calls = j₁.calls ∧
      r.Shows s.evaluations s.trace.rows.toList := by
  obtain ⟨first, j₁, hfirst, h⟩ := Run.exec_bind_eq_ok.mp h
  obtain ⟨last, j₂, hlast, h⟩ := Run.exec_bind_eq_ok.mp h
  obtain ⟨result, j₃, hcheck, h⟩ := Run.exec_bind_eq_ok.mp h
  obtain ⟨hresult, rfl⟩ := Run.exec_check_eq_ok.mp hcheck
  obtain ⟨fmin, j₄, hcheck, h⟩ := Run.exec_bind_eq_ok.mp h
  obtain ⟨-, rfl⟩ := Run.exec_check_eq_ok.mp hcheck
  obtain ⟨_, j₅, htell, h⟩ := Run.exec_bind_eq_ok.mp h
  obtain ⟨rfl, rfl⟩ := Run.exec_pure_eq_ok.mp h
  obtain rfl := Run.exec_tell_eq_ok.mp htell
  exact ⟨last, j₂, ⟨le_rfl, Run.exec_bind_eq_ok.mpr ⟨first, j₁, hfirst, hlast⟩⟩, rfl,
    shows_of_ofTrace hresult⟩

end NelderMead
