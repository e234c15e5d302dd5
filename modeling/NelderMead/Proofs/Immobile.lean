import NelderMead.Proofs.StorageOrder
import NelderMead.Proofs.Stuck

/-!
# Starts without a number

If no vertex of the first simplex has a number, a run never leaves it.  Nothing is less than what is
not a number, so nothing is ever taken, whatever is found later; and all vertices rank alike, so the
first of them is the best one in every row.

* `Simplex.NoNumber.best` — without a number the first vertex is the best one.
* `SearchResult.Repeats` — a result whose rows all show the same sample.
* `Immobile`, **`Problem.NeverFails.neverMoves`** — what a run from such a simplex comes to.
* `latecomer` — a problem with such a run.
-/

namespace NelderMead

variable {σ : Type}

/-! ## The best of a simplex without a number -/

namespace Simplex

variable {s : Simplex} {n : ℕ}

/-- A sorted simplex is ranked as it is stored. -/
lemma byRank_of_sorted (h : s.values.Pairwise fun x y => rankCmp x y ≠ .gt) : s.byRank = s := by
  have horder : s.order = List.range s.length := by
    rw [← s.length_values]
    exact rankOrder_of_sorted h
  have hslots := s.forall₂_byRank
  rw [horder] at hslots
  refine List.ext_getElem (hslots.length_eq.symm.trans List.length_range) fun i hi hi' => ?_
  have hget := hslots.get (List.length_range.symm ▸ hi') hi
  rw [List.get_eq_getElem, List.getElem_range, List.getElem?_eq_getElem hi'] at hget
  exact (Option.some.inj hget).symm

/-- **Without a number the first vertex is the best one**, since all of them rank alike. -/
lemma NoNumber.best (hs : s.NoNumber) {t : Standing} (ht : s.standing n = .ok t) :
    s.head? = some t.best := by
  have hsorted : s.values.Pairwise fun x y => rankCmp x y ≠ .gt := by
    refine List.pairwise_map.mpr (List.pairwise_of_forall_mem_list fun v hv w hw => ?_)
    rw [rankCmp_ne_gt_iff, rankKey_of_isNaN (hs v hv), rankKey_of_isNaN (hs w hw)]
  have hbest := (readsRanks_of_standing ht).best
  rwa [byRank_of_sorted hsorted, ← List.head?_eq_getElem?] at hbest

end Simplex

/-! ## Results that repeat a sample -/

/-- **The result shows the sample `y` in each of its rows**, after `count` evaluations in the first
and two more in each further one. -/
structure SearchResult.Repeats (r : SearchResult) (y : Sample) (count maxIter : ℕ) : Prop where
  iterations : r.iterations = maxIter
  x : r.x.rows = List.replicate maxIter y.point
  f : r.f = List.replicate maxIter y.objective
  g : r.g.rows = List.replicate maxIter y.constraints
  bestX : r.bestX.rows = List.replicate maxIter y.point
  bestF : r.bestF = List.replicate maxIter y.objective
  bestG : r.bestG.rows = List.replicate maxIter y.constraints
  samplesAtIteration : r.samplesAtIteration = (List.range maxIter).map (count + 2 * ·)
  evaluations : r.evaluations = count + 2 * maxIter

lemma SearchResult.Shows.repeats {r : SearchResult} {y : Sample} {count maxIter : ℕ}
    (h : r.Shows (count + 2 * maxIter)
      ((List.range maxIter).map fun i => ⟨y, y, count + 2 * i⟩)) :
    r.Repeats y count maxIter := by
  have hcolumn : ∀ {α : Type} (a : α), (List.range maxIter).map (fun _ => a) =
      List.replicate maxIter a := by
    intro α a
    rw [List.map_const', List.length_range]
  exact
    { iterations := by rw [h.iterations_eq, List.length_map, List.length_range]
      x := by rw [h.x, List.map_map, ← hcolumn]; rfl
      f := by rw [h.f, List.map_map, ← hcolumn]; rfl
      g := by rw [h.g, List.map_map, ← hcolumn]; rfl
      bestX := by rw [h.bestX, List.map_map, ← hcolumn]; rfl
      bestF := by rw [h.bestF, List.map_map, ← hcolumn]; rfl
      bestG := by rw [h.bestG, List.map_map, ← hcolumn]; rfl
      samplesAtIteration := by rw [h.samplesAtIteration, List.map_map]; rfl
      evaluations := h.evaluations_eq }

/-! ## Runs -/

section Runs

variable {q : Problem σ} {o : Options} {start : Start}

/-- **A run that never moves**: it returns the result `r` and leaves the journal `j`, and in all its
states the simplex is the first one, `vs`. -/
structure Immobile (q : Problem σ) (o : Options) (maxIter : ℕ) (start : Start) (w : σ)
    (vs : Simplex) (r : SearchResult) (j : Journal σ) : Prop where
  run : (q.run o maxIter start).execIn w = (.ok r, j)
  /-- The first simplex holds what was found at its points. -/
  points : vs.map Vertex.point = start.points q o
  evaluated : j.samples.take (q.dimension + 1) = vs.map Vertex.sample
  states : ∀ k ≤ maxIter, ∃ s jk, q.Visits o maxIter start w k s jk ∧ s.simplex = vs
  /-- All rows show the first vertex. -/
  rows : ∃ v, vs.head? = some v ∧ r.Repeats v.sample (q.dimension + 1) maxIter

/-- From a visited state without a number before it, the simplex is what it was. -/
lemma Search.Visits.unmoved {p : PenaltyFunction σ} {n maxIter k : ℕ} {points : List Point}
    {j₀ ju j : Journal σ} {u s : Search} {t : Standing} (hn : 0 < n)
    (hlen : u.simplex.length = n + 1) (hu : Visits p n points maxIter j₀ 0 u ju)
    (hnone : u.simplex.NoNumber) (ht : u.simplex.standing n = .ok t)
    (hs : Visits p n points maxIter j₀ k s j) : Unmoved t u k s := by
  obtain ⟨u', ju', hu', hrest⟩ := hs.split (Nat.zero_le k)
  obtain ⟨rfl, rfl⟩ := hu.unique hu'
  exact unmoved_of_iterates hn hlen hnone ht hrest

/-- **From a simplex without a number a run never moves.** -/
theorem Problem.NeverFails.neverMoves (hq : q.NeverFails) (h : q.Accepts o start) {maxIter : ℕ}
    {w : σ} (hnone : ∀ s j, q.Visits o maxIter start w 0 s j → s.simplex.NoNumber) :
    (Trace.Fits q.dimension q.constraintCount maxIter →
        ∃ vs r j, Immobile q o maxIter start w vs r j) ∧
      (¬Trace.Fits q.dimension q.constraintCount maxIter →
        Stops (start.points q o) ((q.run o maxIter start).execIn w)) := by
  constructor
  · intro hfits
    obtain ⟨r, j, hrun⟩ := hq.exists_result h hfits w
    obtain ⟨s, js, hs, hcalls, hshows⟩ :=
      visits_of_search ((h.exec_run_eq maxIter w).symm.trans hrun)
    obtain ⟨u, ju, hu, hrest⟩ := hs.split (Nat.zero_le maxIter)
    obtain ⟨vs, hfirst⟩ := Progress.of_visits q.dimension_pos h.length_points hu
    obtain ⟨rfl, hlength⟩ := hfirst.eq_first
    have hlen : vs.length = q.dimension + 1 := hlength.trans h.length_points
    have hpoints : vs.map Vertex.point = start.points q o :=
      (hfirst.points_prefix.eq_of_length (by rw [List.length_map, hlength])).symm
    have hvs : Simplex.NoNumber vs := hnone _ _ ⟨h, hu⟩
    obtain ⟨t, ht⟩ := Simplex.exists_standing hlen (hfirst.length_point h.length_of_mem_points)
    have hunmoved : ∀ {k : ℕ} {s' : Search} {j' : Journal σ}, Search.Visits h.penalty q.dimension
        (start.points q o) maxIter (start.journal q maxIter h.penalty w) k s' j' →
        Search.Unmoved t ⟨vs, (start.points q o).length, {}⟩ k s' :=
      hu.unmoved q.dimension_pos hlen hvs ht
    refine ⟨vs, r, j, ?_⟩
    refine
      { run := hrun
        points := hpoints
        evaluated := ?_
        states := ?_
        rows := ⟨t.best, hvs.best ht, ?_⟩ }
    · obtain ⟨ws, hprogress⟩ := hfirst.of_iterates q.dimension_pos h.length_points hrest
      have hsamples : j.samples = vs.map Vertex.sample ++ ws.map Vertex.sample := by
        rw [Journal.samples, hcalls, hprogress.calls, start.calls_journal, ← List.map_append]
        exact samplesOf_flatMap _
      rw [hsamples, ← hlen, ← List.length_map Vertex.sample, List.take_left]
    · intro k hk
      obtain ⟨s', j', hs', -⟩ := hs.split hk
      exact ⟨s', j', ⟨h, hs'⟩, (hunmoved hs').simplex⟩
    · have hlast := hunmoved hs
      rw [hlast.evaluations, hlast.rows, h.length_points] at hshows
      exact SearchResult.Shows.repeats hshows
  · exact fun hfull => hq.stops h hfull w

end Runs

/-! ## A function that is late -/

/-- The number itself, but for the first two calls, which return what is not a number. -/
def latecomer : Problem ℕ where
  objective := .ofState fun x => modifyGet fun calls =>
    (if calls < 2 then 0.0 / 0.0 else x.getD 0 0.0, calls + 1)
  x0 := [1.0]
  bounds := square.bounds
  constraints := []
  x0_ne_nil := square.x0_ne_nil
  length_bounds := square.length_bounds
  agrees_objective := by decide
  agrees_constraint := List.forall_mem_nil _

lemma neverFails_latecomer : latecomer.NeverFails :=
  ⟨fun _ _ _ => ⟨_, rfl⟩, List.forall_mem_nil _⟩

lemma accepts_latecomer : latecomer.Accepts {} (.given segment) :=
  ⟨by decide +kernel, by decide +kernel, rfl, rfl⟩

lemma noNumber_latecomer {s : Search} {j : Journal ℕ}
    (h : latecomer.Visits {} 3 (.given segment) 0 0 s j) : s.simplex.NoNumber := by
  have hchecked : (match (Search.first accepts_latecomer.penalty 1 segment.rows 3 >>=
      Search.iterates accepts_latecomer.penalty 1 0).exec { world := 0 } with
    | (.ok s, _) => decide s.simplex.NoNumber
    | (.error _, _) => true) = true := by
    decide +kernel
  obtain ⟨_, _, hrun⟩ := h
  have hstate : (Search.first accepts_latecomer.penalty 1 segment.rows 3 >>=
      Search.iterates accepts_latecomer.penalty 1 0).exec { world := 0 } = (.ok s, j) := hrun
  rw [hstate] at hchecked
  exact of_decide_eq_true hchecked

/-- All later values are numbers, and yet the run stays where it began. -/
theorem neverMoves_latecomer : ∃ vs r j, Immobile latecomer {} 3 (.given segment) 0 vs r j ∧
    ∀ y ∈ j.samples.drop 2, y.objective.isNaN = false := by
  have hfits : Trace.Fits latecomer.dimension latecomer.constraintCount 3 := by decide +kernel
  obtain ⟨vs, r, j, himmobile⟩ := (neverFails_latecomer.neverMoves accepts_latecomer
    fun _ _ hs => noNumber_latecomer hs).1 hfits
  have hlater : ∀ y ∈ ((latecomer.minimizeFrom segment 3 {}).execIn 0).2.samples.drop 2,
      y.objective.isNaN = false := by
    decide +kernel
  have hrun : (latecomer.minimizeFrom segment 3 {}).execIn 0 = (.ok r, j) := himmobile.run
  rw [hrun] at hlater
  exact ⟨vs, r, j, himmobile, hlater⟩

end NelderMead
