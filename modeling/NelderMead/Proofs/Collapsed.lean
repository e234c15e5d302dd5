import NelderMead.Proofs.Accounting
import NelderMead.Proofs.Copies
import NelderMead.Proofs.OrderOnly
import NelderMead.Proofs.Provenance
import NelderMead.Proofs.Sampling
import NelderMead.Proofs.Stuck

/-!
# Collapsed simplexes

Without a spread all vertices of a sampled simplex are copies of the starting point.  A search from
there should not go anywhere, and where the point is the mean of its copies it does not: all its
trial points are copies, too.  Where the mean is another point, already the first trial point is
another one, and nothing more is said of the search.

A function may tell the negative zero from the positive one, and so copies of a point from each
other.  Functions that do not are level on the copies, and then every iteration evaluates twice and
takes nothing.

* `Problem.Collapses` — problems and options without a spread; **`Collapses.copies_of_mem_points`**
  says that their simplexes consist of copies.
* `History.values_of_computes` — the values in a log of functions that compute.
* **`Progress.counts_of_level`** — a search that finds only values of one rank.
* `Collapsed`, **`Problem.Computes.collapsed`** — what a run from a collapsed simplex comes to.
-/

namespace NelderMead

open Binary64 NelderMead.Random

variable {σ γ : Type} [WordSource γ] {q : Problem σ} {o : Options} {f : Point → Float}
  {g : Point → Point}

/-! ## Simplexes without a spread -/

/-- **The problem has a starting point and widths that are finite, and no spread**: the widths are
zero, or else the fraction of them is. -/
structure Problem.Collapses (q : Problem σ) (o : Options) : Prop where
  spreadFraction : isFiniteNonneg o.spreadFraction = true
  mu : isFiniteNonneg o.mu = true
  x0 : ∀ a ∈ q.x0, a.isFinite = true
  width : ∀ d ∈ q.bounds.width, d.isFinite = true
  spread : (∀ d ∈ q.bounds.width, (d == 0.0) = true) ∨ (o.spreadFraction == 0.0) = true

lemma isFinite_of_beq_zero {a : Float} (h : (a == 0.0) = true) : a.isFinite = true :=
  isFinite_of_ticks_eq_zero ((beq_zero_iff a).mp h).1 ((beq_zero_iff a).mp h).2

/-- A product of finite numbers is zero if one of them is. -/
lemma mul_beq_zero {a b : Float} (ha : a.isFinite = true) (hb : b.isFinite = true)
    (h : (a == 0.0) = true ∨ (b == 0.0) = true) : (a * b == 0.0) = true := by
  obtain ⟨hnum, hprod⟩ := ticks_mul ha hb
  refine (beq_zero_iff _).mpr ⟨hnum, ?_⟩
  rw [hprod]
  rcases h with h | h
  · rw [((beq_zero_iff a).mp h).2, zero_mul, Int.zero_ediv, roundInt_zero]
  · rw [((beq_zero_iff b).mp h).2, mul_zero, Int.zero_ediv, roundInt_zero]

/-- Deviations of zero displace a point to a copy of it. -/
lemma copies_displaced {x0 spread z : Point} (hx : ∀ a ∈ x0, a.isNaN = false)
    (hlen : spread.length = x0.length) (hzero : ∀ s ∈ spread, (s == 0.0) = true)
    (hlen' : z.length = x0.length) (hz : ∀ b ∈ z, b.isFinite = true) :
    x0.Copies (displaced x0 spread z) := by
  induction x0 generalizing spread z with
  | nil => exact .nil
  | cons a x0 ih =>
    obtain ⟨s, spread, rfl⟩ := List.exists_cons_of_length_eq_add_one hlen
    obtain ⟨b, z, rfl⟩ := List.exists_cons_of_length_eq_add_one hlen'
    obtain ⟨ha, hx⟩ := List.forall_mem_cons.mp hx
    obtain ⟨hs, hzero⟩ := List.forall_mem_cons.mp hzero
    obtain ⟨hb, hz⟩ := List.forall_mem_cons.mp hz
    have hmove := mul_beq_zero (isFinite_of_beq_zero hs) hb (Or.inl hs)
    exact .cons ((IsCopy.refl a).add_zero ha hmove)
      (ih hx (Nat.succ.inj hlen) hzero (Nat.succ.inj hlen') hz)

namespace Problem.Collapses

lemma spread_eq_zero (h : q.Collapses o) :
    ∀ s ∈ q.bounds.spread o.spreadFraction, (s == 0.0) = true := by
  obtain ⟨hfraction, -⟩ := Bool.and_eq_true_iff.mp h.spreadFraction
  refine List.forall_mem_map.mpr fun d hd => ?_
  exact mul_beq_zero (h.width d hd) hfraction (h.spread.imp_left fun hzero => hzero d hd)

/-- Such a request is accepted, with any generator. -/
lemma accepts (h : q.Collapses o) (gen : γ) : q.Accepts o (.sampled gen) :=
  accepts_sampled_iff.mpr
    ⟨h.spreadFraction, h.mu, fun s hs => isFinite_of_beq_zero (h.spread_eq_zero s hs)⟩

lemma isNaN_x0 (h : q.Collapses o) : ∀ a ∈ q.x0, a.isNaN = false := fun a ha =>
  isNaN_of_isFinite (h.x0 a ha)

/-- **The simplex consists of copies** of the starting point. -/
theorem copies_of_mem_points (h : q.Collapses o) {gen : γ}
    (hdraws : ∀ z ∈ (standardNormals (q.dimension * (q.dimension + 1)) gen).1, z.isFinite = true) :
    ∀ x ∈ (Start.sampled gen).points q o, q.x0.Copies x := by
  have hlen : (q.bounds.spread o.spreadFraction).length = q.x0.length := by
    rw [Bounds.length_spread, q.length_bounds]
  rw [Start.points, sampledPoints_eq]
  refine List.forall_mem_map.mpr fun i hi => ?_
  refine copies_displaced h.isNaN_x0 hlen h.spread_eq_zero ?_ ?_
  · rw [List.length_map, List.length_range]
  · refine List.forall_mem_map.mpr fun k hk => ?_
    rw [standardNormals_eq, List.forall_mem_map] at hdraws
    refine hdraws _ (List.mem_range.mpr ?_)
    rw [List.mem_range] at hi hk
    calc i * q.x0.length + k < (i + 1) * q.x0.length := by rw [Nat.succ_mul]; omega
      _ ≤ (q.dimension + 1) * q.x0.length := Nat.mul_le_mul_right _ hi
      _ = q.dimension * (q.dimension + 1) := Nat.mul_comm ..

end Problem.Collapses

/-! ## Values of one rank -/

/-- **A log of functions that compute values** shows these values. -/
lemma History.values_of_computes (hq : q.Computes f g) {w w' : σ} {cs : List Call}
    (h : History q.objective q.constraints w cs w') {y : Sample} (hy : y.calls ⊆ cs)
    (hdim : y.point.length = q.dimension) (hlength : y.constraints.length = q.constraintCount) :
    y.objective = f y.point ∧ y.constraints = g y.point := by
  have hvalues := hq.constraints y.point hdim
  constructor
  · obtain ⟨u, u', hanswer⟩ := h.exists_answers (hy List.mem_cons_self)
    have houtcome := hanswer.outcome_of_objective rfl
    rw [hq.objective y.point hdim u] at houtcome
    exact Except.ok.inj houtcome
  · refine List.ext_getElem (hlength.trans hvalues.length_eq) fun i hi hi' => ?_
    have hic : i < q.constraints.length := hi.trans_eq hlength
    have hmem := hy (List.mem_cons_of_mem _ (mem_constraintCalls (List.getElem?_eq_getElem hi)))
    obtain ⟨u, u', hanswer⟩ := h.exists_answers hmem
    have houtcome := hanswer.outcome_of_constraint rfl (List.getElem?_eq_getElem hic)
    exact Except.ok.inj (houtcome.trans (hvalues.get hic hi' u))

/-- With all values of one rank there is no room for a reflected point. -/
lemma Move.Chosen.spent_eq_two_of_level {i n : ℕ} {t : Standing} {m : Move} {vs : List Vertex}
    {s : Simplex} (h : m.Chosen i t vs) (hd : t.Describes n s)
    (hlevel : n = 1 ∨ ∀ v ∈ vs, v.key = t.secondWorst.key) : m.spent = 2 := by
  rcases hlevel with hline | hlevel
  · exact h.spent_eq_two (hd.secondWorst_eq_best hline)
  · cases h with
    | reflection reflected above below =>
      have hlt := ((lt_iff_rankKey _ _).mp below).2
      have heq := hlevel _ List.mem_cons_self
      exact absurd hlt heq.not_lt
    | _ => rfl

/-- **A search that finds only values of one rank**, or is one on a line, evaluates twice in every
iteration. -/
theorem Progress.counts_of_level {p : PenaltyFunction σ} {n k : ℕ} {points : List Point}
    {j₀ j : Journal σ} {vs : List Vertex} {s : Search} (h : Progress p n points j₀ k vs s j)
    (hlevel : n = 1 ∨ ∃ key, ∀ v ∈ vs, v.key = key) :
    s.evaluations = points.length + 2 * k ∧ s.trace.rows.toList.map (·.evaluations) =
      (List.range k).map (points.length + 2 * ·) := by
  induction h with
  | first => exact ⟨rfl, rfl⟩
  | @iterate k vs ws s j j₁ t m before describes chosen evaluated ih =>
    obtain ⟨hcount, hrows⟩ := ih (hlevel.imp_right fun ⟨key, hkey⟩ =>
      ⟨key, fun v hv => hkey v (List.mem_append_left _ hv)⟩)
    have hspent : m.spent = 2 := by
      refine chosen.spent_eq_two_of_level describes (hlevel.imp_right fun ⟨key, hkey⟩ v hv => ?_)
      rw [hkey v (List.mem_append_right _ hv), hkey _ (List.mem_append_left _
        (before.simplex_subset describes.secondWorst_mem))]
    constructor
    · show s.evaluations + m.spent = points.length + 2 * (k + 1)
      rw [hcount, hspent, Nat.add_assoc, Nat.mul_succ]
    · rw [Search.rows_next, List.map_append, hrows, List.range_succ, List.map_append, hcount]
      rfl

/-! ## Searches from copies -/

section Searches

variable {p : PenaltyFunction σ} {x : Point} {points : List Point} {maxIter : ℕ} {j₀ j : Journal σ}
  {s : Search}

/-- Every iteration begins with a reflected point. -/
lemma Move.Chosen.exists_reflected {i : ℕ} {t : Standing} {m : Move} {vs : List Vertex}
    (h : m.Chosen i t vs) : ∃ r ∈ vs, t.Reaches t.worst (-NelderMead.reflection) r := by
  cases h with
  | reflection reflected => exact ⟨_, List.mem_cons_self, reflected⟩
  | expansion reflected | expansionRejected reflected | contraction reflected
  | contractionRejected reflected => exact ⟨_, List.mem_cons_self, reflected⟩

/-- A reflected copy equals the point only if that is the mean of its copies. -/
lemma Simplex.steady_of_reflected (hx : ∀ a ∈ x, a.isFinite = true) (hpos : 0 < x.length)
    {s : Simplex} (hlen : s.length = x.length + 1) (hs : ∀ v ∈ s, x.Copies v.point) {t : Standing}
    (ht : s.standing x.length = .ok t) {r : Vertex} (hr : t.Reaches t.worst (-reflection) r)
    (hequals : x.Equals r.point) : x.Steady := by
  have hworst := hs _ (describes_of_standing hpos hlen ht).worst_mem
  refine Point.steady_of_reflected hx ?_ ?_ (readsRanks_of_standing ht).centroid hworst hr hequals
  · rw [List.length_map, List.length_take, s.byRank_perm.length_eq, hlen]
    omega
  · refine List.forall_mem_map.mpr fun v hv => hs v ?_
    exact s.byRank_perm.mem_iff.mp (List.mem_of_mem_take hv)

/-- The first simplex of a visited search holds what was found at its points. -/
lemma Search.Visits.exists_first (hpos : 0 < x.length) (hpoints : points.length = x.length + 1)
    (h : Visits p x.length points maxIter j₀ maxIter s j) :
    ∃ vs ju, vs.map Vertex.point = points ∧
      Progress p x.length points j₀ 0 vs ⟨vs, points.length, {}⟩ ju ∧
      (iterates p x.length maxIter ⟨vs, points.length, {}⟩).exec ju = (.ok s, j) := by
  obtain ⟨u, ju, hu, hrest⟩ := h.split (Nat.zero_le maxIter)
  obtain ⟨vs, hfirst⟩ := Progress.of_visits hpos hpoints hu
  obtain ⟨rfl, hlength⟩ := hfirst.eq_first
  refine ⟨vs, ju, ?_, hfirst, hrest⟩
  exact (hfirst.points_prefix.eq_of_length (by rw [List.length_map, hlength])).symm

/-- **From copies of a point that is their mean**, a search evaluates nothing but copies. -/
theorem Search.Visits.copies (hx : ∀ a ∈ x, a.isFinite = true) (hpos : 0 < x.length)
    (hsteady : x.Steady) (hpoints : points.length = x.length + 1)
    (hcopies : ∀ y ∈ points, x.Copies y)
    (h : Visits p x.length points maxIter j₀ maxIter s j) :
    ∃ vs, Progress p x.length points j₀ maxIter vs s j ∧ ∀ v ∈ vs, x.Copies v.point := by
  obtain ⟨vs, ju, rfl, hfirst, hrest⟩ := h.exists_first hpos hpoints
  have hvs : ∀ v ∈ vs, x.Copies v.point := List.forall_mem_map.mp hcopies
  obtain ⟨ws, hprogress, hws⟩ :=
    hfirst.confined (hsteady.closedUnder hx hpos) hpos hpoints hvs hrest
  rw [Nat.zero_add] at hprogress
  exact ⟨vs ++ ws, hprogress, List.forall_mem_append.mpr ⟨hvs, hws⟩⟩

/-- **If a search from copies evaluates only equal points**, the point is the mean of its copies. -/
theorem Search.Visits.steady (hx : ∀ a ∈ x, a.isFinite = true) (hpos : 0 < x.length)
    (hpoints : points.length = x.length + 1) (hcopies : ∀ y ∈ points, x.Copies y)
    (h : Visits p x.length points maxIter j₀ maxIter s j) (hiter : maxIter ≠ 0)
    (hequals : ∀ vs, Progress p x.length points j₀ maxIter vs s j → ∀ v ∈ vs, x.Equals v.point) :
    x.Steady := by
  obtain ⟨vs, ju, rfl, hfirst, hrest⟩ := h.exists_first hpos hpoints
  obtain ⟨l, rfl⟩ := Nat.exists_eq_succ_of_ne_zero hiter
  obtain ⟨u, j₁, hu, hlast⟩ := Run.exec_bind_eq_ok.mp hrest
  obtain ⟨t, m, ws, j₂, hdecides, hchosen, hevaluated, rfl, rfl⟩ := next_of_exec hu
  have hlen : vs.length = x.length + 1 := by rwa [List.length_map] at hpoints
  have hdescribes := Simplex.describes_of_standing hpos hlen hdecides.1
  obtain ⟨ws', hprogress⟩ :=
    (hfirst.iterate hdescribes hchosen hevaluated).of_iterates hpos hpoints hlast
  rw [Nat.zero_add, Nat.add_comm] at hprogress
  obtain ⟨r, hr, hreached⟩ := hchosen.exists_reflected
  have hmem : r ∈ vs ++ ws ++ ws' := List.mem_append_left _ (List.mem_append_right _ hr)
  exact Simplex.steady_of_reflected hx hpos hlen (List.forall_mem_map.mp hcopies) hdecides.1
    hreached (hequals _ hprogress r hmem)

end Searches

/-! ## Runs that have ended -/

namespace Problem.Accepts

variable {start : Start} {maxIter : ℕ} {w : σ} {r : SearchResult} {s : Search} {j js : Journal σ}
  {vs : List Vertex}

/-- **The run has ended** with the result `r` and the log `j`, and its search in the state `s`. -/
structure Ended (h : q.Accepts o start) (maxIter : ℕ) (w : σ) (r : SearchResult) (j : Journal σ)
    (s : Search) (js : Journal σ) : Prop where
  completes : q.Completes maxIter o w (start.points q o) r j
  visits : Search.Visits h.penalty q.dimension (start.points q o) maxIter
    (start.journal q maxIter h.penalty w) maxIter s js
  calls : j.calls = js.calls
  shows : r.Shows s.evaluations s.trace.rows.toList

/-- The vertices that a run evaluated up to the state `s`. -/
def Gathers (h : q.Accepts o start) (maxIter : ℕ) (w : σ) (vs : List Vertex) (s : Search)
    (js : Journal σ) : Prop :=
  Progress h.penalty q.dimension (start.points q o) (start.journal q maxIter h.penalty w) maxIter vs
    s js

/-- Where there is room, a run whose functions never fail comes to its end. -/
lemma exists_ended (h : q.Accepts o start) (hq : q.NeverFails)
    (hfits : Trace.Fits q.dimension q.constraintCount maxIter) (w : σ) :
    ∃ r j s js, (q.run o maxIter start).execIn w = (.ok r, j) ∧ h.Ended maxIter w r j s js := by
  obtain ⟨r, j, hrun⟩ := hq.exists_result h hfits w
  obtain ⟨s, js, hvisits, hcalls, hshows⟩ :=
    visits_of_search ((h.exec_run_eq maxIter w).symm.trans hrun)
  have hcompletes : q.Completes maxIter o w (start.points q o) r j := by
    cases start with
    | given simplex => exact .given hrun
    | sampled gen => exact .sampled hrun
  exact ⟨r, j, s, js, hrun, hcompletes, hvisits, hcalls, hshows⟩

namespace Ended

variable {h : q.Accepts o start}

/-- The log is that of the vertices evaluated. -/
lemma calls_eq (e : h.Ended maxIter w r j s js) (hvs : h.Gathers maxIter w vs s js) :
    j.calls.toList = (vs.map Vertex.sample).flatMap Sample.calls := by
  rw [e.calls, Progress.calls hvs, Start.calls_journal]
  rfl

lemma samples_eq (e : h.Ended maxIter w r j s js) (hvs : h.Gathers maxIter w vs s js) :
    j.samples = vs.map Vertex.sample := by
  rw [Journal.samples, e.calls_eq hvs, samplesOf_flatMap]

/-- The augmented values that were found are those at the points. -/
lemma augmented_eq (e : h.Ended maxIter w r j s js) (hvs : h.Gathers maxIter w vs s js)
    (hq : q.Computes f g) : ∀ v ∈ vs, v.augmented = h.augmentedAt f g v.point := by
  intro v hv
  have hconsistent := Progress.consistent hvs v hv
  have hcalls : v.sample.calls ⊆ j.calls.toList := by
    rw [e.calls_eq hvs]
    exact fun c hc => List.mem_flatMap.mpr ⟨_, List.mem_map_of_mem hv, hc⟩
  obtain ⟨hobjective, hconstraints⟩ := e.completes.history.values_of_computes hq hcalls
    (Progress.length_point h.length_of_mem_points hvs v hv) hconsistent.length_constraints
  rw [← hconsistent.augmentedOf_sample, PenaltyFunction.augmentedOf, hobjective, hconstraints]
  rfl

/-- The rows show points that were evaluated. -/
lemma mem_rows (e : h.Ended maxIter w r j s js) (hvs : h.Gathers maxIter w vs s js) {x : Point}
    (hx : x ∈ r.x.rows ++ r.bestX.rows) : ∃ v ∈ vs, v.point = x := by
  have hpoint : ∀ {row : Row} {y : Sample}, y ∈ (vs.map Vertex.sample).take row.evaluations →
      ∃ v ∈ vs, v.point = y.point := by
    intro row y hy
    obtain ⟨v, hv, rfl⟩ := List.mem_map.mp (List.mem_of_mem_take hy)
    exact ⟨v, hv, rfl⟩
  rw [e.shows.x, e.shows.bestX] at hx
  rcases List.mem_append.mp hx with hx | hx
  · obtain ⟨row, hrow, rfl⟩ := List.mem_map.mp hx
    exact hpoint (Progress.rows_from hvs row hrow).current
  · obtain ⟨row, hrow, rfl⟩ := List.mem_map.mp hx
    exact hpoint (Progress.rows_from hvs row hrow).best

/-- A run that found only values of one rank, or is one on a line, evaluated twice in every
iteration. -/
lemma counts_of_level (e : h.Ended maxIter w r j s js) (hvs : h.Gathers maxIter w vs s js)
    (hlevel : q.dimension = 1 ∨ ∃ key, ∀ v ∈ vs, v.key = key) :
    r.evaluations = q.dimension + 1 + 2 * maxIter ∧
      r.samplesAtIteration = (List.range maxIter).map (q.dimension + 1 + 2 * ·) := by
  have hcounts := Progress.counts_of_level hvs hlevel
  rwa [h.length_points, ← e.shows.evaluations_eq, ← e.shows.samplesAtIteration] at hcounts

end Ended

end Problem.Accepts

/-! ## Runs from copies -/

/-- **The functions are level on the copies** of the starting point: there is only one copy, or the
augmented values at all of them rank alike. -/
def Problem.Accepts.Level {start : Start} (h : q.Accepts o start) (f : Point → Float)
    (g : Point → Point) : Prop :=
  (∀ a ∈ q.x0, a ≠ -0.0) ∨
    ∀ x, q.x0.Copies x → rankKey (h.augmentedAt f g x) = rankKey (h.augmentedAt f g q.x0)

lemma Problem.Accepts.Level.rankKey_eq {start : Start} {h : q.Accepts o start}
    (hlevel : h.Level f g) {x : Point} (hx : q.x0.Copies x) :
    rankKey (h.augmentedAt f g x) = rankKey (h.augmentedAt f g q.x0) := by
  rcases hlevel with hone | hlevel
  · rw [hx.eq hone]
  · exact hlevel x hx

/-- **A result and a log that stay with the starting point** as far as they do.  `level` says that
the functions do not tell its copies apart. -/
structure StaysPut (q : Problem σ) (maxIter : ℕ) (level : Prop) (r : SearchResult) (j : Journal σ) :
    Prop where
  iterations : r.iterations = maxIter
  /-- The log leaves out no evaluation. -/
  blocks : j.calls.toList = j.samples.flatMap Sample.calls
  /-- Whether all points equal the starting point. -/
  trials : (∀ y ∈ j.samples, q.x0.Equals y.point) ↔ maxIter = 0 ∨ q.x0.Steady
  rows : q.x0.Steady → ∀ x ∈ r.x.rows ++ r.bestX.rows, q.x0.Equals x
  evaluations : q.dimension = 1 ∨ q.x0.Steady ∧ level →
    r.evaluations = q.dimension + 1 + 2 * maxIter ∧
      r.samplesAtIteration = (List.range maxIter).map (q.dimension + 1 + 2 * ·)

/-- **What a run from a collapsed simplex comes to.** -/
structure Collapsed (q : Problem σ) (maxIter : ℕ) (level : Prop) (points : List Point)
    (out : Except (Failure SolverError) SearchResult × Journal σ) : Prop where
  length_points : points.length = q.dimension + 1
  equals : ∀ x ∈ points, q.x0.Equals x
  /-- On a line every point is the mean of its copies. -/
  line : q.dimension = 1 → q.x0.Steady
  returns : Trace.Fits q.dimension q.constraintCount maxIter →
    ∃ r, out.1 = .ok r ∧ (out.2.samples.take (q.dimension + 1)).map Sample.point = points ∧
      StaysPut q maxIter level r out.2
  stops : ¬Trace.Fits q.dimension q.constraintCount maxIter → Stops points out

section Copies

variable {start : Start} {maxIter : ℕ} {w : σ} {r : SearchResult} {s : Search} {j js : Journal σ}

/-- **A run whose simplex consists of copies** stays with the starting point as far as it can. -/
theorem Problem.Accepts.Ended.staysPut {h : q.Accepts o start} (e : h.Ended maxIter w r j s js)
    (hq : q.Computes f g) (hx : ∀ a ∈ q.x0, a.isFinite = true)
    (hcopies : ∀ x ∈ start.points q o, q.x0.Copies x) :
    StaysPut q maxIter (h.Level f g) r j := by
  have haccount := e.completes.accounting
  have hequals : ∀ {x : Point}, q.x0.Copies x → q.x0.Equals x := fun hcopy =>
    hcopy.equals fun a ha => isNaN_of_isFinite (hx a ha)
  have hstays : q.x0.Steady → ∃ vs, h.Gathers maxIter w vs s js ∧ ∀ v ∈ vs, q.x0.Copies v.point :=
    fun hsteady => e.visits.copies hx q.dimension_pos hsteady h.length_points hcopies
  refine
    { iterations := haccount.iterations_eq
      blocks := haccount.blocks
      trials := ⟨fun hall => ?_, ?_⟩
      rows := fun hsteady x hrow => ?_
      evaluations := ?_ }
  · by_cases hiter : maxIter = 0
    · exact Or.inl hiter
    · refine Or.inr (e.visits.steady hx q.dimension_pos h.length_points hcopies hiter ?_)
      intro vs hvs v hv
      exact hall v.sample (e.samples_eq hvs ▸ List.mem_map_of_mem hv)
  · rintro (rfl | hsteady)
    · -- without an iteration there are no points but those of the simplex
      intro y hy
      have hmem := List.mem_map_of_mem (f := Sample.point) hy
      rw [← List.take_of_length_le (haccount.length_samples.trans_le haccount.bounds.2),
        haccount.firstPoints] at hmem
      exact hequals (hcopies _ hmem)
    · obtain ⟨vs, hvs, hcopies⟩ := hstays hsteady
      rw [e.samples_eq hvs]
      exact List.forall_mem_map.mpr fun v hv => hequals (hcopies v hv)
  · obtain ⟨vs, hvs, hcopies⟩ := hstays hsteady
    obtain ⟨v, hv, rfl⟩ := e.mem_rows hvs hrow
    exact hequals (hcopies v hv)
  · rintro (hline | ⟨hsteady, hlevel⟩)
    · obtain ⟨vs, hvs⟩ := Progress.of_visits q.dimension_pos h.length_points e.visits
      exact e.counts_of_level hvs (Or.inl hline)
    · obtain ⟨vs, hvs, hcopies⟩ := hstays hsteady
      refine e.counts_of_level hvs (Or.inr ⟨rankKey (h.augmentedAt f g q.x0), fun v hv => ?_⟩)
      rw [Vertex.key, e.augmented_eq hvs hq v hv]
      exact hlevel.rankKey_eq (hcopies v hv)

end Copies

/-- **A run from a collapsed simplex** stays with its starting point exactly where that is the mean
of its copies, as it is computed; and where the functions are level on the copies, it evaluates
twice in every iteration.  The hypothesis on the draws is what normal numbers are like. -/
theorem Problem.Computes.collapsed (hq : q.Computes f g) (hc : q.Collapses o) (gen : γ)
    (hdraws : ∀ z ∈ (standardNormals (q.dimension * (q.dimension + 1)) gen).1, z.isFinite = true)
    (maxIter : ℕ) (w : σ) :
    Collapsed q maxIter ((hc.accepts gen).Level f g) ((Start.sampled gen).points q o)
      ((q.minimizeWith maxIter o gen).1.execIn w) := by
  have haccepts := hc.accepts gen
  have hcopies := hc.copies_of_mem_points hdraws
  refine
    { length_points := haccepts.length_points
      equals := fun x hx => (hcopies x hx).equals hc.isNaN_x0
      line := fun hline => Point.steady_singleton hline hc.x0
      returns := fun hfits => ?_
      stops := fun hfull => hq.neverFails.stops haccepts hfull w }
  obtain ⟨r, j, s, js, hrun, hended⟩ := haccepts.exists_ended hq.neverFails hfits w
  have hexec : (q.minimizeWith maxIter o gen).1.execIn w = (.ok r, j) := hrun
  rw [hexec]
  exact ⟨r, rfl, hended.completes.accounting.firstPoints, hended.staysPut hq hc.x0 hcopies⟩

/-! ## Some collapsed simplexes -/

/-- A generator that hands out one word over and over. -/
structure Repeating where
  word : UInt64

instance : WordSource Repeating := ⟨fun gen => (gen.word, gen)⟩

/-- Such a generator, which draws a number near minus two. -/
def minusTwo : Repeating := ⟨0x4000000000000000⟩

/-- Options for a simplex without a spread. -/
def withoutSpread : Options := { spreadFraction := 0.0 }

lemma collapses_bowl : bowl.Collapses withoutSpread :=
  ⟨by decide +kernel, by decide +kernel, by decide +kernel, by decide +kernel,
    Or.inr (by decide +kernel)⟩

/-- The mean of two ones is one. -/
theorem collapsed_bowl : bowl.Collapses withoutSpread ∧
    (∀ z ∈ (standardNormals 6 minusTwo).1, z.isFinite = true) ∧ bowl.x0.Steady ∧
    ∃ r, ((bowl.minimizeWith 3 withoutSpread minusTwo).1.execIn ()).1 = .ok r ∧
      r.evaluations = 9 ∧ ∀ x ∈ r.x.rows ++ r.bestX.rows, bowl.x0.Equals x := by
  have hdraws : ∀ z ∈ (standardNormals 6 minusTwo).1, z.isFinite = true := by decide +kernel
  have hsteady : bowl.x0.Steady := by decide +kernel
  have hone : ∀ a ∈ bowl.x0, a ≠ -0.0 := by decide +kernel
  obtain ⟨r, hr, -, hstays⟩ :=
    (computes_bowl.collapsed collapses_bowl minusTwo hdraws 3 ()).returns (by decide +kernel)
  exact ⟨collapses_bowl, hdraws, hsteady, r, hr,
    (hstays.evaluations (Or.inr ⟨hsteady, Or.inl hone⟩)).1, hstays.rows hsteady⟩

/-- The opposite of the first number. -/
def oppositeValue (x : Point) : Float := -x.getD 0 0.0

/-- That is to be minimised, with bounds that leave three numbers a tenth each. -/
def tenths : Problem Unit where
  objective := .ofPoint fun x => .ok (oppositeValue x)
  x0 := [0.1, 0.1, 0.1]
  bounds := ⟨[0.1, 0.1, 0.1], [0.1, 0.1, 0.1], rfl, List.cons_ne_nil _ _, by decide +kernel⟩
  constraints := []
  x0_ne_nil := List.cons_ne_nil _ _
  length_bounds := rfl
  agrees_objective := by decide
  agrees_constraint := List.forall_mem_nil _

lemma computes_tenths : tenths.Computes oppositeValue fun _ => [] :=
  ⟨fun _ _ _ => rfl, fun _ _ => .nil⟩

lemma collapses_tenths : tenths.Collapses {} :=
  ⟨by decide +kernel, by decide +kernel, by decide +kernel, by decide +kernel,
    Or.inl (by decide +kernel)⟩

/-- The opposite of the reciprocal of the first number, which tells the zeros apart. -/
def reciprocalValue (x : Point) : Float := -1.0 / x.getD 0 0.0

/-- That is to be minimised from the negative zero. -/
def signedZeros : Problem Unit where
  objective := .ofPoint fun x => .ok (reciprocalValue x)
  x0 := [-0.0, -0.0]
  bounds := ⟨[0.0, 0.0], [1.0, 1.0], rfl, bowl.bounds.lower_ne_nil, by decide +kernel⟩
  constraints := []
  x0_ne_nil := List.cons_ne_nil _ _
  length_bounds := rfl
  agrees_objective := by decide
  agrees_constraint := List.forall_mem_nil _

lemma computes_signedZeros : signedZeros.Computes reciprocalValue fun _ => [] :=
  ⟨fun _ _ _ => rfl, fun _ _ => .nil⟩

lemma collapses_signedZeros : signedZeros.Collapses withoutSpread :=
  ⟨by decide +kernel, by decide +kernel, by decide +kernel, by decide +kernel,
    Or.inr (by decide +kernel)⟩

/-- **Not all collapsed simplexes stay so.**  The mean of three tenths is another number, so the
first trial point from a simplex that collapsed there is another point.  And where all points stay
equal, a function that tells the zeros apart may accept a reflected point, which takes one
evaluation. -/
theorem not_collapsed :
    (¬∀ (q : Problem Unit) (f : Point → Float) (g : Point → Point) (o : Options) (gen : Repeating)
      (maxIter : ℕ), q.Computes f g → q.Collapses o →
        (∀ z ∈ (standardNormals (q.dimension * (q.dimension + 1)) gen).1, z.isFinite = true) →
        Trace.Fits q.dimension q.constraintCount maxIter →
        ∀ y ∈ ((q.minimizeWith maxIter o gen).1.execIn ()).2.samples, q.x0.Equals y.point) ∧
    (¬∀ (q : Problem Unit) (f : Point → Float) (g : Point → Point) (o : Options) (gen : Repeating)
      (maxIter : ℕ), q.Computes f g → q.Collapses o →
        (∀ z ∈ (standardNormals (q.dimension * (q.dimension + 1)) gen).1, z.isFinite = true) →
        Trace.Fits q.dimension q.constraintCount maxIter →
        (∀ y ∈ ((q.minimizeWith maxIter o gen).1.execIn ()).2.samples, q.x0.Equals y.point) →
        ((q.minimizeWith maxIter o gen).1.execIn ()).2.samples.length =
          q.dimension + 1 + 2 * maxIter) := by
  constructor
  · intro h
    have hequals := h tenths oppositeValue (fun _ => []) {} minusTwo 2 computes_tenths
      collapses_tenths (by decide +kernel) (by decide +kernel)
    have hchecked : ¬∀ y ∈ ((tenths.minimizeWith 2 {} minusTwo).1.execIn ()).2.samples,
        tenths.x0.Equals y.point := by
      decide +kernel
    exact hchecked hequals
  · intro h
    have hcount := h signedZeros reciprocalValue (fun _ => []) withoutSpread minusTwo 2
      computes_signedZeros collapses_signedZeros (by decide +kernel) (by decide +kernel)
      (by decide +kernel)
    have hchecked : ((signedZeros.minimizeWith 2 withoutSpread minusTwo).1.execIn
        ()).2.samples.length ≠ 7 := by
      decide +kernel
    exact hchecked hcount

end NelderMead
