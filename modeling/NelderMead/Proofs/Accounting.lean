import NelderMead.Proofs.EntryPoints
import Mathlib.Data.List.Chain

/-!
# Evaluations are accounted for

A run counts its evaluations, writes the count into every row and leaves the calls in the journal.
The three always agree.

* `Journal.callsOf` — how often a function was called; `countP_calls` counts a block of calls.
* `Search.counts` — the counts in the rows and the count at the end; **`Progress.isChain_counts`**
  says that each iteration adds what its move spent.
* **`Problem.Completes.accounting`** — the whole account of a run that succeeds.
-/

namespace NelderMead

variable {σ : Type}

/-! ## Calls of one function -/

/-- How often the function `t` of a problem was called. -/
def Journal.callsOf (j : Journal σ) (t : Target) : ℕ := j.calls.toList.countP (·.target = t)

lemma countP_constraintCalls_objective (x : Point) (i : ℕ) (gs : Point) :
    (constraintCalls x i gs).countP (·.target = .objective) = 0 := by
  induction gs generalizing i with
  | nil => rfl
  | cons g gs ih =>
    rw [constraintCalls_cons, List.countP_cons_of_neg (by simp), ih]

lemma countP_constraintCalls (x : Point) (i k : ℕ) (gs : Point) :
    (constraintCalls x i gs).countP (·.target = .constraint k) =
      if i ≤ k ∧ k < i + gs.length then 1 else 0 := by
  induction gs generalizing i with
  | nil =>
    rw [if_neg (by simp)]
    rfl
  | cons g gs ih =>
    rw [constraintCalls_cons, List.countP_cons, ih, List.length_cons]
    simp only [decide_eq_true_eq, Target.constraint.injEq]
    split_ifs <;> omega

/-- A block of calls has one call of the objective and one of each constraint. -/
lemma countP_calls (y : Sample) :
    y.calls.countP (·.target = .objective) = 1 ∧
      ∀ k < y.constraints.length, y.calls.countP (·.target = .constraint k) = 1 := by
  constructor
  · rw [Sample.calls, List.countP_cons_of_pos (by simp), countP_constraintCalls_objective]
  · intro k hk
    rw [Sample.calls, List.countP_cons_of_neg (by simp), countP_constraintCalls, if_pos (by omega)]

/-- In blocks that call a function once each, it is called once for each block. -/
lemma countP_flatMap_calls {ss : List Sample} {t : Target}
    (h : ∀ y ∈ ss, y.calls.countP (·.target = t) = 1) :
    (ss.flatMap Sample.calls).countP (·.target = t) = ss.length := by
  induction ss with
  | nil => rfl
  | cons y ss ih =>
    obtain ⟨hy, hss⟩ := List.forall_mem_cons.mp h
    rw [List.flatMap_cons, List.countP_append, hy, ih hss, List.length_cons, Nat.add_comm]

/-! ## Counts in the rows -/

/-- The counts that the rows show, and the count after the last iteration. -/
def Search.counts (s : Search) : List ℕ :=
  s.trace.rows.toList.map (·.evaluations) ++ [s.evaluations]

lemma Search.counts_next (s : Search) (t : Standing) (m : Move) :
    (s.next t m).counts = s.counts ++ [s.evaluations + m.spent] := by
  rw [counts, counts, rows_next, List.map_append]
  rfl

namespace Progress

variable {p : PenaltyFunction σ} {n k : ℕ} {points : List Point} {j₀ j : Journal σ}
  {vs : List Vertex} {s : Search}

lemma head_counts (h : Progress p n points j₀ k vs s j) :
    s.counts.head? = some points.length := by
  induction h with
  | first => rfl
  | @iterate k vs ws s j j₁ t m before describes chosen evaluated ih =>
    rw [Search.counts_next, List.head?_append, ih, Option.some_or]

/-- **Each iteration adds what its move spent.** -/
theorem isChain_counts {R : ℕ → ℕ → Prop}
    (hspent : ∀ (a i : ℕ) (t : Standing) (m : Move) (ws : List Vertex) (s : Simplex),
      t.Describes n s → m.Chosen i t ws → R a (a + m.spent))
    (h : Progress p n points j₀ k vs s j) : s.counts.IsChain R := by
  induction h with
  | first => exact List.isChain_singleton _
  | @iterate k vs ws s j j₁ t m before describes chosen evaluated ih =>
    rw [Search.counts_next, List.isChain_append]
    refine ⟨ih, List.isChain_singleton _, fun a ha b hb => ?_⟩
    rw [Search.counts, List.getLast?_append, List.getLast?_singleton, Option.some_or] at ha
    obtain rfl := Option.some.inj ha
    obtain rfl := Option.some.inj hb
    exact hspent _ _ t m ws s.simplex describes chosen

lemma evaluations_bounds (h : Progress p n points j₀ k vs s j) :
    points.length + k ≤ s.evaluations ∧ s.evaluations ≤ points.length + 2 * k := by
  induction h with
  | first => exact ⟨le_rfl, le_rfl⟩
  | @iterate k vs ws s j j₁ t m before describes chosen evaluated ih =>
    have hspent := chosen.spent_cases
    show points.length + (k + 1) ≤ s.evaluations + m.spent ∧
      s.evaluations + m.spent ≤ points.length + 2 * (k + 1)
    omega

end Progress

/-! ## The account of a run -/

/-- **The account of a run** of the problem `q` from the given points. -/
structure Accounts (q : Problem σ) (maxIter : ℕ) (points : List Point) (r : SearchResult)
    (j : Journal σ) : Prop where
  iterations_eq : r.iterations = maxIter
  columns : r.f.length = maxIter ∧ r.g.rowCount = maxIter ∧ r.x.rowCount = maxIter ∧
    r.bestF.length = maxIter ∧ r.bestG.rowCount = maxIter ∧ r.bestX.rowCount = maxIter ∧
    r.samplesAtIteration.length = maxIter
  objectiveCalls : j.callsOf .objective = r.evaluations
  constraintCalls : ∀ k < q.constraintCount, j.callsOf (.constraint k) = r.evaluations
  /-- The calls are the blocks of the samples, one after the other. -/
  blocks : j.calls.toList = j.samples.flatMap Sample.calls
  length_samples : j.samples.length = r.evaluations
  shape : ∀ y ∈ j.samples, y.point.length = q.dimension ∧ y.constraints.length = q.constraintCount
  firstPoints : (j.samples.take (q.dimension + 1)).map Sample.point = points
  firstCount : 0 < maxIter → r.samplesAtIteration.head? = some (q.dimension + 1)
  steps : (r.samplesAtIteration ++ [r.evaluations]).IsChain fun a b => b = a + 1 ∨ b = a + 2
  bounds : q.dimension + 1 + maxIter ≤ r.evaluations ∧
    r.evaluations ≤ q.dimension + 1 + 2 * maxIter
  /-- On a line no reflected point is taken as it is, so every iteration evaluates twice. -/
  line : q.dimension = 1 →
    (r.samplesAtIteration ++ [r.evaluations]).IsChain fun a b => b = a + 2

lemma SearchResult.Shows.counts {r : SearchResult} {s : Search}
    (h : r.Shows s.evaluations s.trace.rows.toList) :
    r.samplesAtIteration ++ [r.evaluations] = s.counts := by
  rw [h.samplesAtIteration, h.evaluations_eq, Search.counts]

/-- **Every evaluation is accounted for.**  A run that succeeds makes as many iterations as it was
asked for, its calls are one block for each counted evaluation, and each iteration adds one or two
to the count. -/
theorem Problem.Completes.accounting {q : Problem σ} {maxIter : ℕ} {o : Options} {w : σ}
    {points : List Point} {r : SearchResult} {j : Journal σ}
    (h : q.Completes maxIter o w points r j) : Accounts q maxIter points r j := by
  obtain ⟨f, hf⟩ := h.exists_penalized
  obtain ⟨hlength, hdim, vs, s, j₀, j₁, hprogress, hcalls, hsamples, hshows⟩ := h.progress hf
  have hrows : s.trace.rows.toList.length = maxIter := by
    rw [Array.length_toList]
    exact hprogress.size_trace
  have hevaluations : r.evaluations = vs.length := by
    rw [hshows.evaluations_eq, hprogress.evaluations_eq]
  have hshape : ∀ y ∈ j.samples, y.point.length = q.dimension ∧
      y.constraints.length = q.constraintCount := by
    rw [hsamples]
    refine List.forall_mem_map.mpr fun v hv => ⟨hprogress.length_point hdim v hv, ?_⟩
    rw [← constraintCount_of_penalized hf]
    exact (hprogress.consistent v hv).length_constraints
  have hlog : j.calls.toList = j.samples.flatMap Sample.calls := by
    rw [hsamples, hcalls]
  have hnumber : j.samples.length = r.evaluations := by
    rw [hsamples, List.length_map, hevaluations]
  have hcounts := hprogress.head_counts
  rw [← hshows.counts, hlength] at hcounts
  have hbounds := hprogress.evaluations_bounds
  rw [hlength, ← hshows.evaluations_eq] at hbounds
  refine
    { iterations_eq := hshows.iterations_eq.trans hrows
      columns := ?_
      objectiveCalls := ?_
      constraintCalls := fun k hk => ?_
      blocks := hlog
      length_samples := hnumber
      shape := hshape
      firstPoints := ?_
      firstCount := fun hpos => ?_
      steps := ?_
      bounds := hbounds
      line := fun hline => ?_ }
  · simp only [Matrix.rowCount, hshows.f, hshows.g, hshows.x, hshows.bestF, hshows.bestG,
      hshows.bestX, hshows.samplesAtIteration, List.length_map, hrows, and_self]
  · rw [Journal.callsOf, hlog, countP_flatMap_calls fun y _ => (countP_calls y).1, hnumber]
  · have honce : ∀ y ∈ j.samples, y.calls.countP (·.target = .constraint k) = 1 := fun y hy =>
      (countP_calls y).2 k ((hshape y hy).2 ▸ hk)
    rw [Journal.callsOf, hlog, countP_flatMap_calls honce, hnumber]
  · obtain ⟨rest, hrest⟩ := hprogress.points_prefix
    have hpoints : j.samples.map Sample.point = points ++ rest := by
      rw [hsamples, List.map_map, hrest]
      rfl
    rw [List.map_take, hpoints, ← hlength, List.take_left]
  · rcases hsamplesAt : r.samplesAtIteration with _ | ⟨a, rest⟩
    · have hempty := congrArg List.length hsamplesAt
      rw [hshows.samplesAtIteration, List.length_map, hrows, List.length_nil] at hempty
      omega
    · rw [hsamplesAt] at hcounts
      exact hcounts
  · rw [hshows.counts]
    refine hprogress.isChain_counts fun a i t m ws s hd hm => ?_
    rcases hm.spent_cases with hspent | hspent <;> omega
  · rw [hshows.counts]
    refine hprogress.isChain_counts fun a i t m ws s hd hm => ?_
    rw [hm.spent_eq_two (hd.secondWorst_eq_best hline)]

theorem accounts_square : ∃ r j, square.Completes 2 {} () segment.rows r j ∧
    Accounts square 2 segment.rows r j := by
  obtain ⟨r, j, hrun, -⟩ := completes_square (P := fun _ _ => True) (by decide +kernel)
  exact ⟨r, j, hrun, hrun.accounting⟩

end NelderMead
