import NelderMead.Proofs.OrderOnly

/-!
# What a search sees of its functions

A search learns nothing of its functions but what it finds at the points that it evaluates.  On any
other functions that find the same vertices there, whatever they do elsewhere, it makes the same
evaluations and comes to the same result.

* `Vertex.FoundBy`, `Found` — vertices that were found, and a log of some of them.
* `Local` — that a computation sees no more of its functions; `Local.bind` and its neighbours put
  such computations together.
* `local_choose`, `local_iterate` — a move and an iteration.
* **`local_search`** — whole searches.
* **`Problem.Accepts.exec_run_of_agree`** — runs of two problems that agree where one of them
  evaluates.
-/

namespace NelderMead

variable {σ : Type}

/-! ## Vertices that were found -/

/-- The vertex was found at its point, in some world. -/
def Vertex.FoundBy (p : PenaltyFunction σ) (v : Vertex) : Prop :=
  ∃ j j', (Vertex.evaluate p v.point).exec j = (.ok v, j')

/-- **The vertices `vs` were found one after the other**, which took the log of calls from that of
`j` to that of `j'`.  Events may have been told as well. -/
structure Found (p : PenaltyFunction σ) (vs : List Vertex) (j j' : Journal σ) : Prop where
  found : ∀ v ∈ vs, v.FoundBy p
  calls : j'.calls.toList = j.calls.toList ++ (vs.map Vertex.sample).flatMap Sample.calls

namespace Found

variable {p : PenaltyFunction σ} {vs ws : List Vertex} {j j' j'' : Journal σ}

lemma of_calls_eq (h : j'.calls = j.calls) : Found p [] j j' :=
  ⟨List.forall_mem_nil _, by rw [h]; exact (List.append_nil _).symm⟩

lemma append (h : Found p vs j j') (h' : Found p ws j' j'') : Found p (vs ++ ws) j j'' where
  found := List.forall_mem_append.mpr ⟨h.found, h'.found⟩
  calls := by
    rw [h'.calls, h.calls, List.append_assoc, List.map_append, List.flatMap_append]

/-- What is found from the first call on is what the log shows. -/
lemma samples_eq (h : Found p vs j j') (hj : j.calls = #[]) :
    j'.samples = vs.map Vertex.sample := by
  have hcalls := h.calls
  rw [hj] at hcalls
  rw [Journal.samples, hcalls]
  exact samplesOf_flatMap _

end Found

/-! ## Local computations -/

/-- **The computation is local**: if it returns, it does so on all functions that find the same
vertices.  All it may see of them otherwise is how many constraints there are. -/
def Local {α : Type} (c : PenaltyFunction σ → Run σ SolverError α) : Prop :=
  ∀ p j a j', (c p).exec j = (.ok a, j') → ∃ vs, Found p vs j j' ∧
    ∀ p' : PenaltyFunction σ, p'.constraintCount = p.constraintCount → (∀ v ∈ vs, p'.Finds v) →
      ∀ i, ∃ i', (c p').exec i = (.ok a, i') ∧ Found p' vs i i'

namespace Local

variable {α β : Type} {c c' : PenaltyFunction σ → Run σ SolverError α}
  {d : α → PenaltyFunction σ → Run σ SolverError β}

/-- A value that depends at most on the number of constraints. -/
lemma check (value : ℕ → Except Fault α) : Local fun p : PenaltyFunction σ =>
    (Run.check (value p.constraintCount) : Run σ SolverError α) := by
  intro p j a j' h
  obtain ⟨ha, rfl⟩ := Run.exec_check_eq_ok.mp h
  refine ⟨[], .of_calls_eq rfl, fun p' hcount _ i => ⟨i, ?_, .of_calls_eq rfl⟩⟩
  exact Run.exec_check_eq_ok.mpr ⟨hcount ▸ ha, rfl⟩

lemma pure (a : α) : Local fun _ : PenaltyFunction σ => (Pure.pure a : Run σ SolverError α) :=
  check fun _ => .ok a

lemma tell (e : Event) : Local fun _ : PenaltyFunction σ => (Run.tell e : Run σ SolverError Unit) := by
  intro p j a j' h
  obtain rfl := Run.exec_tell_eq_ok.mp h
  exact ⟨[], .of_calls_eq rfl, fun _ _ _ i => ⟨_, Run.exec_tell_eq_ok.mpr rfl, .of_calls_eq rfl⟩⟩

/-- **Local computations put together** are local. -/
theorem bind (h : Local c) (next : ∀ a, Local (d a)) : Local fun p => c p >>= fun a => d a p := by
  intro p j b j'' hb
  obtain ⟨a, j', ha, hb⟩ := Run.exec_bind_eq_ok.mp hb
  obtain ⟨vs, hvs, hagain⟩ := h p j a j' ha
  obtain ⟨ws, hws, hagain'⟩ := next a p j' b j'' hb
  refine ⟨vs ++ ws, hvs.append hws, fun p' hcount hfinds i => ?_⟩
  obtain ⟨hfinds, hfinds'⟩ := List.forall_mem_append.mp hfinds
  obtain ⟨i', hi, hvs'⟩ := hagain p' hcount hfinds i
  obtain ⟨i'', hi', hws'⟩ := hagain' p' hcount hfinds' i'
  exact ⟨i'', Run.exec_bind_eq_ok.mpr ⟨a, i', hi, hi'⟩, hvs'.append hws'⟩

lemma ite {P : Prop} [Decidable P] (h : Local c) (h' : Local c') :
    Local fun p => if P then c p else c' p := by
  by_cases hP : P
  · simpa only [if_pos hP] using h
  · simpa only [if_neg hP] using h'

/-- One evaluation finds one vertex. -/
lemma evaluate (x : Point) : Local fun p : PenaltyFunction σ => Vertex.evaluate p x := by
  intro p j v j' h
  obtain ⟨rfl, hevaluated⟩ := evaluated_of_exec h
  refine ⟨[v], ⟨List.forall_mem_singleton.mpr ⟨j, j', h⟩, hevaluated.calls⟩, ?_⟩
  intro p' _ hfinds i
  have hv := hfinds v List.mem_cons_self
  obtain ⟨i', hi, hevaluated'⟩ := hv.exec_evaluate i
  exact ⟨i', hi, List.forall_mem_singleton.mpr ⟨i, i', hi⟩, hevaluated'.calls⟩

lemma mapM_evaluate (points : List Point) :
    Local fun p : PenaltyFunction σ => points.mapM (Vertex.evaluate p) := by
  induction points with
  | nil => simpa only [List.mapM_nil] using pure []
  | cons x points ih =>
    simp only [List.mapM_cons]
    exact (evaluate x).bind fun v => ih.bind fun vs => pure (v :: vs)

end Local

/-! ## Searches -/

lemma local_trial (t : Standing) (target : Vertex) (k : Float) :
    Local fun p : PenaltyFunction σ => t.trial p target k :=
  (Local.check fun _ => Point.toward t.centroid target.point k).bind Local.evaluate

/-- **The choice of a move** is local: its comparisons are between vertices that were found. -/
theorem local_choose (i : ℕ) (t : Standing) :
    Local fun p : PenaltyFunction σ => Move.choose p i t := by
  unfold Move.choose
  refine (local_trial t t.worst _).bind fun r => ?_
  refine .ite (.pure _) (.ite ?_ ?_)
  · exact (local_trial t r _).bind fun e => .ite (.pure _) (.pure _)
  · exact (local_trial t t.worst _).bind fun c => .ite (.pure _) (.pure _)

theorem local_iterate (n : ℕ) (s : Search) :
    Local fun p : PenaltyFunction σ => Search.iterate p n s := by
  unfold Search.iterate
  refine (Local.check fun _ => s.simplex.standing n).bind fun t => ?_
  exact (local_choose s.trace.size t).bind fun m => (Local.tell m.event).bind fun _ => .pure _

lemma local_iterates (n k : ℕ) (s : Search) :
    Local fun p : PenaltyFunction σ => Search.iterates p n k s := by
  induction k generalizing s with
  | zero => exact .pure s
  | succ k ih => exact (local_iterate n s).bind ih

/-- **A search is local**. -/
theorem local_search (n : ℕ) (points : List Point) (maxIter : ℕ) :
    Local fun p : PenaltyFunction σ => search p n points maxIter := by
  have hfirst : Local fun p : PenaltyFunction σ => Search.first p n points maxIter :=
    (Local.mapM_evaluate points).bind fun vs =>
      (Local.check fun m => Trace.reserve n m maxIter).bind fun _ => .pure _
  refine hfirst.bind fun s => (local_iterates n maxIter s).bind fun last => ?_
  refine (Local.check fun m => SearchResult.ofTrace n m last.evaluations last.trace).bind ?_
  intro r
  exact (Local.check fun _ => r.fmin).bind fun best => (Local.tell _).bind fun _ => .pure r

/-! ## Runs -/

section Runs

variable {q q' : Problem σ} {o : Options} {start : Start} {f f' : Point → Float}
  {g g' : Point → Point} {maxIter : ℕ} {w : σ} {r : SearchResult} {j : Journal σ}

/-- All samples of a run that returns are of its shape. -/
lemma Problem.Accepts.shaped_samples (h : q.Accepts o start)
    (hrun : (q.run o maxIter start).execIn w = (.ok r, j)) :
    ∀ y ∈ j.samples, y.Shaped q.dimension q.constraintCount := by
  obtain ⟨j₀, -, hempty, hends⟩ := h.ends maxIter w
  rw [hrun] at hends
  cases hends with
  | returned value whole grows =>
    rw [Journal.samples, grows.calls_eq hempty, samplesOf_flatMap]
    exact whole

/-- A run that returns is a log of whole evaluations of vertices that it found. -/
lemma Problem.Accepts.exists_found (h : q.Accepts o start)
    (hrun : (q.run o maxIter start).execIn w = (.ok r, j)) :
    ∃ vs : List Vertex, (∀ v ∈ vs, v.FoundBy h.penalty) ∧ j.samples = vs.map Vertex.sample ∧
      j.calls.toList = j.samples.flatMap Sample.calls := by
  rw [h.exec_run_eq] at hrun
  obtain ⟨vs, hfound, -⟩ := local_search _ _ _ _ _ _ _ hrun
  have hsamples := hfound.samples_eq (start.calls_journal ..)
  refine ⟨vs, hfound.found, hsamples, ?_⟩
  rw [hsamples, hfound.calls, start.calls_journal]
  exact List.nil_append _

/-- The samples of a run show the values that its functions compute. -/
lemma Problem.Computes.sample_eq (hq : q.Computes f g) (h : q.Accepts o start)
    (hrun : (q.run o maxIter start).execIn w = (.ok r, j)) {y : Sample} (hy : y ∈ j.samples) :
    y = ⟨y.point, f y.point, g y.point⟩ := by
  have hpoint := (h.shaped_samples hrun y hy).point
  obtain ⟨vs, hfound, hsamples, -⟩ := h.exists_found hrun
  rw [hsamples] at hy
  obtain ⟨v, hv, rfl⟩ := List.mem_map.mp hy
  obtain ⟨k, k', hexec⟩ := hfound v hv
  obtain ⟨k'', hexec', -⟩ := h.exec_evaluate hq hpoint k
  have hvertex : v = h.vertexAt f g v.point := by
    have heq := hexec.symm.trans hexec'
    rw [Prod.mk.injEq, Except.ok.injEq] at heq
    exact heq.1
  exact congrArg Vertex.sample hvertex

/-- **A run depends on its functions at the points that it evaluates, and nowhere else.**  A problem
with the same values there is run to the same result. -/
theorem Problem.Accepts.exec_run_of_agree (h : q.Accepts o start) (h' : q'.Accepts o start)
    (hdim : q'.dimension = q.dimension) (hpoints : start.points q' o = start.points q o)
    (hcount : q'.constraintCount = q.constraintCount) (hq' : q'.Computes f' g')
    (hrun : (q.run o maxIter start).execIn w = (.ok r, j))
    (hagree : ∀ y ∈ j.samples, y = ⟨y.point, f' y.point, g' y.point⟩) (w' : σ) :
    ∃ j', (q'.run o maxIter start).execIn w' = (.ok r, j') ∧ j'.samples = j.samples := by
  have hshaped := h.shaped_samples hrun
  rw [h.exec_run_eq] at hrun
  obtain ⟨vs, hfound, hagain⟩ := local_search _ _ _ _ _ _ _ hrun
  have hsamples := hfound.samples_eq (start.calls_journal ..)
  suffices hfinds : ∀ v ∈ vs, h'.penalty.Finds v by
    obtain ⟨j', hrun', hfound'⟩ := hagain h'.penalty hcount hfinds
      (start.journal q' maxIter h'.penalty w')
    refine ⟨j', ?_, (hfound'.samples_eq (start.calls_journal ..)).trans hsamples.symm⟩
    rw [h'.exec_run_eq, hdim, hpoints]
    exact hrun'
  intro v hv
  have hmem : v.sample ∈ j.samples := hsamples ▸ List.mem_map_of_mem hv
  have hpoint : v.point.length = q'.dimension := (hshaped _ hmem).point.trans hdim.symm
  obtain ⟨hobjective, hconstraints⟩ : v.found.objective = f' v.point ∧
      v.found.constraints = g' v.point := by
    have heq := hagree _ hmem
    exact ⟨congrArg Sample.objective heq, congrArg Sample.constraints heq⟩
  obtain ⟨k, k', hexec⟩ := hfound.found v hv
  obtain ⟨-, hevaluated⟩ := evaluated_of_exec hexec
  exact
    { objective := fun u => by
        rw [hobjective]
        exact hq'.objective v.point hpoint u
      constraints := by
        rw [hconstraints]
        exact hq'.constraints v.point hpoint
      found := (hevaluated.consistent v List.mem_cons_self).found }

end Runs

end NelderMead
