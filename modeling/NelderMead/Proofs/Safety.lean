import NelderMead.Proofs.Ending
import NelderMead.Proofs.EntryPoints

/-!
# Safety

A run of a problem ends in a result or in an error.  The one thing that can make it fault is a trace
too large for any machine: whatever else could fault, in the search or behind it, reads positions
that exist and joins vectors of one length.  That follows from the shape of the states, which the
checks before a run establish and every iteration keeps.  The functions of the caller see points of
the right dimension only.

* `Search.InRange` — a state from which nothing can fault; **`Search.Visits.inRange`** says so of all
  states that a search visits.
* `Course.InRange`, **`Course.Visits.inRange`** — the same of a run, where a row may not exist or a
  sample not fit.
* `Ends.length_point` — the points at which functions are called.
* `Safe`, `Safe.map` — an outcome without an avoidable fault.
* `RunsSafely`, **`Problem.runsSafely`** — all runs of a problem.
-/

namespace NelderMead

open NelderMead.Random

variable {σ : Type} {p : PenaltyFunction σ} {n maxIter k : ℕ} {points : List Point}
  {j₀ j : Journal σ} {α β : Type}

/-! ## States -/

/-- **A state from which nothing can fault**, before iteration `k` of `maxIter`. -/
structure Search.InRange (p : PenaltyFunction σ) (n maxIter k : ℕ) (s : Search) : Prop where
  index_le : k ≤ maxIter
  /-- One row was recorded for each iteration before this one. -/
  size_trace : s.trace.size = k
  /-- The simplex has `n + 1` vertices; points are of length `n` and there is a value for each
  constraint, in the vertices as in the rows. -/
  shaped : s.Shaped n p.constraintCount
  /-- The order ranks every slot once. -/
  order : s.simplex.order.Perm (List.range (n + 1))
  /-- There is a vertex of every rank. -/
  rank : ∀ i ≤ n, ∃ v, s.simplex.ofRank i = .ok v
  standing : ∃ t, s.simplex.standing n = .ok t
  /-- From the centroid a step towards any point of the dimension is such a point. -/
  toward : ∀ t x a, s.simplex.standing n = .ok t → x.length = n →
    ∃ z, Point.toward t.centroid x a = .ok z ∧ z.length = n
  iterate : ∀ j f, ((Search.iterate p n s).exec j).1 ≠ .error (.fault f)
  /-- The result can be read off, and so can the least objective. -/
  result : ∃ r, SearchResult.ofTrace n p.constraintCount s.evaluations s.trace = .ok r ∧
    ∃ best, r.fmin = .ok best

/-- A computation that has room does not fault. -/
lemma Ends.ne_fault {room : Prop} {Q : α → Prop}
    {out : Except (Failure SolverError) α × Journal σ} (h : Ends p n room Q j out) (hroom : room)
    (f : Fault) : out.1 ≠ .error (.fault f) := by
  cases h with
  | returned => exact fun hfault => nomatch hfault
  | interrupted => exact fun hfault => nomatch hfault
  | noRoom full => exact absurd hroom full

/-- **Nothing can fault** in a state that a search visits. -/
theorem Search.Visits.inRange (hdim : ∀ c ∈ p.constraints, Agrees n c.dimension) (hn : 0 < n)
    (hpoints : ∀ x ∈ points, x.length = n) (hlength : points.length = n + 1) {s : Search}
    (h : Visits p n points maxIter j₀ k s j) : s.InRange p n maxIter k := by
  obtain ⟨vs, hprogress⟩ := Progress.of_visits hn hlength h
  have hshaped := h.shaped hdim hn hpoints hlength
  refine
    { index_le := h.1
      size_trace := hprogress.size_trace
      shaped := hshaped
      order := hshaped.length_simplex ▸ s.simplex.order_perm
      rank := fun i hi => Simplex.exists_ofRank hshaped.length_simplex hi
      standing := hshaped.exists_standing
      toward := ?_
      iterate := fun j f => (ends_iterate hdim hn hshaped j).ne_fault trivial f
      result := hshaped.exists_result s.evaluations }
  intro t x a ht hx
  have hcentroid :=
    (Simplex.describes_of_standing hn hshaped.length_simplex ht).length_centroid
  obtain ⟨z, hz⟩ := Point.exists_toward (hcentroid.trans hx.symm) a
  exact ⟨z, hz, (Point.length_toward hz).trans hcentroid⟩

/-- **A state of a run from which nothing can fault**, before iteration `k` of `maxIter`. -/
structure Course.InRange (p : PenaltyFunction σ) (n maxIter k : ℕ) (c : Course) : Prop where
  index_le : k ≤ maxIter
  /-- The rows before this iteration are written, and its own is the next. -/
  count_eq : c.stores.count = k
  /-- All stores have `maxIter` rows, of the widths of points and of values of constraints. -/
  sized : c.stores.Sized n p.constraintCount maxIter
  /-- Each vertex fits into the next row, which can be compared with the row before. -/
  record : k < maxIter → ∀ v ∈ c.simplex, ∃ st, c.stores.record v.sample c.evaluations = .ok st
  iterate : k < maxIter → ∀ j f, ((Course.iterate p n c).exec j).1 ≠ .error (.fault f)
  /-- From the last state the least objective can be read off. -/
  result : k = maxIter → ∃ best, (SearchResult.ofStores c.evaluations c.stores).fmin = .ok best
  /-- The state shows one of a search by rows. -/
  search : ∃ s : Search, s.InRange p n maxIter k ∧ c.Refines n p.constraintCount maxIter s

/-- **Nothing can fault** in a state of a run. -/
theorem Course.Visits.inRange (hdim : ∀ c ∈ p.constraints, Agrees n c.dimension) (hn : 0 < n)
    (hpoints : ∀ x ∈ points, x.length = n) (hlength : points.length = n + 1) {c : Course}
    (h : Visits p n points maxIter j₀ k c j) : c.InRange p n maxIter k := by
  obtain ⟨s, hvisits, hrefines⟩ := h.exists_search hn hlength hpoints
  have hs := hvisits.inRange hdim hn hpoints hlength
  have hroom : k < maxIter → s.trace.size < maxIter := fun hk => hs.size_trace.trans_lt hk
  refine
    { index_le := hs.index_le
      count_eq := hrefines.stores.count_eq.trans hs.size_trace
      sized := hrefines.stores.sized (hs.size_trace.trans_le hs.index_le)
      record := fun hk v hv => ?_
      iterate := fun hk j f hfault => ?_
      result := fun hk => ?_
      search := ⟨s, hs, hrefines⟩ }
  · obtain ⟨st, hst, -⟩ := hrefines.stores.record (hroom hk)
      (hrefines.shaped.vertex v (hrefines.simplex ▸ hv)) c.evaluations
    exact ⟨st, hst⟩
  · exact hs.iterate j f ((coupled_iterate hn hrefines (hroom hk)).error_eq hfault)
  · obtain ⟨r, hr, hbest⟩ := hs.result
    rw [hrefines.stores.ofTrace (hs.size_trace.trans hk)] at hr
    obtain rfl := Except.ok.inj hr
    rwa [← hrefines.evaluations] at hbest

/-! ## Calls -/

lemma Sample.Shaped.length_point {m : ℕ} {y : Sample} (h : y.Shaped n m) :
    ∀ c ∈ y.calls, c.point.length = n := by
  refine List.forall_mem_cons.mpr ⟨h.point, List.forall_mem_map.mpr fun gi _ => h.point⟩

lemma Interrupted.length_point {m : ℕ} {cs : List Call} {e : SolverError}
    (h : Interrupted n m cs e) : ∀ c ∈ cs, c.point.length = n := by
  cases h with
  | objective x dimension => exact List.forall_mem_singleton.mpr dimension
  | constraint y dimension =>
    have hy : y.Shaped n y.constraints.length := ⟨dimension, rfl⟩
    exact List.forall_mem_append.mpr ⟨hy.length_point, List.forall_mem_singleton.mpr dimension⟩

/-- **Functions are called at points of the dimension** only, also by a computation that fails. -/
theorem Ends.length_point {room : Prop} {Q : α → Prop}
    {out : Except (Failure SolverError) α × Journal σ} (h : Ends p n room Q j out)
    (hj : ∀ c ∈ j.calls.toList, c.point.length = n) :
    ∀ c ∈ out.2.calls.toList, c.point.length = n := by
  have hwhole : ∀ {ys : List Sample}, (∀ y ∈ ys, y.Shaped n p.constraintCount) →
      ∀ c ∈ ys.flatMap Sample.calls, c.point.length = n := by
    intro ys hys c hc
    obtain ⟨y, hy, hcall⟩ := List.mem_flatMap.mp hc
    exact (hys y hy).length_point c hcall
  cases h with
  | returned _ whole grows | noRoom _ whole grows =>
    rw [grows.calls]
    exact List.forall_mem_append.mpr ⟨hj, hwhole whole⟩
  | interrupted whole interrupted grows =>
    rw [grows.calls]
    exact List.forall_mem_append.mpr
      ⟨hj, List.forall_mem_append.mpr ⟨hwhole whole, interrupted.length_point⟩⟩

/-! ## Runs -/

/-- **An outcome of a run that is safe**, for `maxIter` iterations on the problem `q`. -/
structure Safe (q : Problem σ) (maxIter : ℕ) (out : Except (Failure SolverError) α × Journal σ) :
    Prop where
  /-- With room for the trace, the run ends in a value or an error. -/
  answers : Trace.Fits q.dimension q.constraintCount maxIter →
    (∃ a, out.1 = .ok a) ∨ ∃ e, out.1 = .error (.error e)
  /-- All functions are called at points of the dimension. -/
  points : ∀ c ∈ out.2.calls.toList, c.point.length = q.dimension

lemma Safe.map {q : Problem σ} {r : Run σ SolverError α} {w : σ}
    (h : Safe q maxIter (r.execIn w)) (f : α → β) :
    Safe q maxIter (Run.execIn (do return f (← r) : Run σ SolverError β) w) := by
  rw [Run.execIn] at h
  rw [Run.execIn, Run.exec_bind]
  generalize r.exec { world := w } = out at h
  obtain ⟨e | a, j⟩ := out
  · refine ⟨fun hfits => ?_, h.points⟩
    rcases h.answers hfits with ⟨a, ha⟩ | ⟨e', he⟩
    · cases ha
    · obtain rfl := Except.error.inj he
      exact Or.inr ⟨e', rfl⟩
  · exact ⟨fun _ => Or.inl ⟨f a, rfl⟩, h.points⟩

/-- A run from either kind of simplex is safe, whether the request is accepted or not. -/
lemma Problem.safe_run (q : Problem σ) (o : Options) (maxIter : ℕ) (start : Start) (w : σ) :
    Safe q maxIter ((q.run o maxIter start).execIn w) := by
  by_cases h : q.Accepts o start
  · obtain ⟨j₀, -, hempty, hends⟩ := h.ends maxIter w
    have hcalls : ∀ c ∈ j₀.calls.toList, c.point.length = q.dimension := by
      rw [hempty]
      exact List.forall_mem_nil _
    refine ⟨fun hfits => ?_, hends.length_point hcalls⟩
    generalize (q.run o maxIter start).execIn w = out at hends
    cases hends with
    | returned => exact Or.inl ⟨_, rfl⟩
    | interrupted => exact Or.inr ⟨_, rfl⟩
    | noRoom full => exact absurd hfits full
  · obtain ⟨e, -, hrefuses⟩ := Problem.refuses_of_not_accepts h
    obtain ⟨j, hfail, -, hempty⟩ := hrefuses maxIter w
    rw [hfail]
    refine ⟨fun _ => Or.inr ⟨e, rfl⟩, ?_⟩
    rw [hempty]
    exact List.forall_mem_nil _

/-- **All runs of `maxIter` iterations** on the problem `q` in the world `w` are safe. -/
structure RunsSafely (q : Problem σ) (maxIter : ℕ) (w : σ) : Prop where
  minimizeWith : ∀ {γ : Type} [WordSource γ] (o : Options) (g : γ),
    Safe q maxIter ((q.minimizeWith maxIter o g).1.execIn w)
  minimizeFrom : ∀ (o : Options) (simplex : Matrix),
    Safe q maxIter ((q.minimizeFrom simplex maxIter o).execIn w)
  minimize : ∀ solver : Solver, Safe q maxIter ((solver.minimize q maxIter).1.execIn w)
  solve : ∀ solver : Solver, Safe q maxIter ((solver.solve q maxIter).1.execIn w)
  /-- A linear constraint has a value at every point of the dimension. -/
  linear : ∀ g, .linear g ∈ q.constraints → ∀ x, x.length = q.dimension → ∃ v, g.value x = .ok v
  /-- In all states of a run nothing can fault, also if a function fails later. -/
  states : ∀ (o : Options) (start : Start) (h : q.Accepts o start) (k : ℕ) (s : Search)
    (j : Journal σ), Search.Visits h.penalty q.dimension (start.points q o) maxIter
      (start.journal q maxIter h.penalty w) k s j →
    s.InRange h.penalty q.dimension maxIter k
  /-- Neither can it in the stores. -/
  courses : ∀ (o : Options) (start : Start) (h : q.Accepts o start) (k : ℕ) (c : Course)
    (j : Journal σ), Course.Visits h.penalty q.dimension (start.points q o) maxIter
      (start.journal q maxIter h.penalty w) k c j →
    c.InRange h.penalty q.dimension maxIter k

/-- **No run faults** but for want of room. -/
theorem Problem.runsSafely (q : Problem σ) (maxIter : ℕ) (w : σ) : RunsSafely q maxIter w where
  minimizeWith o g := q.safe_run o maxIter (.sampled g) w
  minimizeFrom o simplex := q.safe_run o maxIter (.given simplex) w
  minimize solver := q.safe_run solver.options maxIter (.sampled solver.generator) w
  solve solver := by
    have hrun := q.safe_run solver.options maxIter (.sampled solver.generator) w
    exact hrun.map SearchResult.output
  linear g hg x hx := LinearConstraint.exists_value
    ((q.agrees_constraint _ hg g.a.length rfl).trans hx.symm)
  states o start h k s j hs :=
    hs.inRange q.agrees_constraint q.dimension_pos h.length_of_mem_points h.length_points
  courses o start h k c j hc :=
    hc.inRange q.agrees_constraint q.dimension_pos h.length_of_mem_points h.length_points

end NelderMead
