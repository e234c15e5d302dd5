import NelderMead.Proofs.Ending
import NelderMead.Proofs.Ranking
import NelderMead.Proofs.Together

/-!
# Two searches side by side

A search sees its functions through the points that it asks for and through comparisons of augmented
values.  If two searches start from points that correspond, and corresponding points get vertices
that compare alike, then the searches take the same decisions all the way: what they return
corresponds, or both fail, and so do their journals.

* `PointRelation` — a correspondence of points that what is computed from points respects;
  `Point.sharing` is that of points that are the same on both sides.
* `Mirror` — what has to correspond in two searches, with the laws that the search relies on.
* **`Mirror.standing`**, **`Mirror.choose`**, **`Mirror.iterate`** — one iteration on both sides.
* **`Mirror.explore`**, **`Mirror.search_of_fits`**, `Mirror.run_of_fits` — whole searches.
-/

namespace NelderMead

variable {σ τ : Type}

/-! ## Points on both sides -/

/-- **A correspondence of points** that the search can rely on: points that are computed from
corresponding ones correspond. -/
structure PointRelation (n : ℕ) where
  points : Point → Point → Prop
  toward : ∀ {c c' t t'}, points c c' → points t t' → ∀ k,
    Alike points (Point.toward c t k) (Point.toward c' t' k)
  mean : ∀ {ps ps'}, List.Forall₂ points ps ps' → Alike points (Point.mean n ps) (Point.mean n ps')

namespace Point

variable {n : ℕ} {c c' t t' : Point}

/-- **One point on both sides**, of dimension `n`. -/
structure Shared (n : ℕ) (x x' : Point) : Prop where
  eq : x = x'
  length : x.length = n

lemma Shared.toward (hc : Shared n c c') (ht : Shared n t t') (k : Float) :
    Alike (Shared n) (toward c t k) (toward c' t' k) := by
  obtain ⟨z, hz⟩ := exists_toward (hc.length.trans ht.length.symm) k
  rw [← hc.eq, ← ht.eq, hz]
  exact .ok ⟨rfl, (length_toward hz).trans hc.length⟩

lemma Shared.mean {ps ps' : List Point} (h : List.Forall₂ (Shared n) ps ps') :
    Alike (Shared n) (mean n ps) (mean n ps') := by
  have heq : ps = ps' := List.forall₂_eq_eq_eq ▸ h.imp fun _ _ => Shared.eq
  subst heq
  obtain ⟨z, hz⟩ := exists_mean fun p hp => (List.forall₂_same.mp h p hp).length
  rw [hz]
  exact .ok ⟨rfl, length_mean hz⟩

lemma Shared.refl {ps : List Point} (h : ∀ x ∈ ps, x.length = n) :
    List.Forall₂ (Shared n) ps ps :=
  List.forall₂_same.mpr fun x hx => ⟨rfl, h x hx⟩

/-- **The same points** on both sides correspond. -/
def sharing (n : ℕ) : PointRelation n where
  points := Shared n
  toward := Shared.toward
  mean := Shared.mean

end Point

/-! ## Mirrors -/

variable {p : PenaltyFunction σ} {p' : PenaltyFunction τ} {n : ℕ}

/-- **A correspondence between two searches** in dimension `n`.  Only the augmented values of
vertices have to compare alike; nothing is asked of the values themselves. -/
structure Mirror (p : PenaltyFunction σ) (p' : PenaltyFunction τ) (n : ℕ) extends
    PointRelation n where
  vertices : Vertex → Vertex → Prop
  traces : Trace → Trace → Prop
  causes : Failure SolverError → Failure SolverError → Prop
  journals : Journal σ → Journal τ → Prop
  /-- Corresponding vertices are at corresponding points. -/
  point : ∀ {v v'}, vertices v v' → points v.point v'.point
  /-- Corresponding vertices compare alike. -/
  compare : ∀ {u u' v v'}, vertices u u' → vertices v v' →
    CompareAlike u.augmented v.augmented u'.augmented v'.augmented
  /-- Evaluations at corresponding points find corresponding vertices. -/
  evaluate : ∀ {x x'}, points x x' →
    Run.Coupled journals causes vertices (Vertex.evaluate p x) (Vertex.evaluate p' x')
  /-- Traces correspond from the first on and as rows are recorded. -/
  empty : traces {} {}
  record : ∀ {t t' v v'}, traces t t' → vertices v v' → ∀ evaluations,
    traces (t.record v.sample evaluations) (t'.record v'.sample evaluations)
  /-- Events do not matter. -/
  told : ∀ {j j'}, journals j j' → ∀ e e',
    journals { j with events := j.events.push e } { j' with events := j'.events.push e' }
  fault : ∀ f, causes (.fault f) (.fault f)

namespace Mirror

variable (M : Mirror p p' n)

/-! ## One iteration -/

/-- Corresponding simplexes, slot by slot. -/
def Simplexes : Simplex → Simplex → Prop := List.Forall₂ M.vertices

/-- **Corresponding standings.**  The worst vertices are in the same slot. -/
structure Standings (t t' : Standing) : Prop where
  best : M.vertices t.best t'.best
  secondWorst : M.vertices t.secondWorst t'.secondWorst
  worst : M.vertices t.worst t'.worst
  worstSlot : t.worstSlot = t'.worstSlot
  centroid : M.points t.centroid t'.centroid

/-- Corresponding moves. -/
structure Moves (m m' : Move) : Prop where
  newcomer : Option.Rel M.vertices m.newcomer m'.newcomer
  spent : m.spent = m'.spent

/-- **Corresponding states.** -/
structure States (s s' : Search) : Prop where
  simplex : M.Simplexes s.simplex s'.simplex
  evaluations : s.evaluations = s'.evaluations
  trace : M.traces s.trace s'.trace

/-- The computations end together. -/
abbrev Coupled {α β : Type} (R : α → β → Prop) (r : Run σ SolverError α)
    (r' : Run τ SolverError β) : Prop :=
  Run.Coupled M.journals M.causes R r r'

variable {M} {s s' : Search} {t t' : Standing}

lemma check {α β : Type} {R : α → β → Prop} {c : Except Fault α} {d : Except Fault β}
    (h : Alike R c d) : M.Coupled R (Run.check c) (Run.check d) :=
  Run.Coupled.check M.fault h

lemma tell (e e' : Event) : M.Coupled (fun _ _ => True) (Run.tell e) (Run.tell e') :=
  fun _ _ hj => .returned trivial (M.told hj e e')

/-- Corresponding simplexes are ranked alike. -/
lemma order_eq {a a' : Simplex} (h : M.Simplexes a a') : a.order = a'.order := by
  refine rankOrder_congr (R := fun x x' => ∃ v v', M.vertices v v' ∧ x = v.augmented ∧
    x' = v'.augmented) ?_ ?_
  · rintro _ _ _ _ ⟨u, u', hu, rfl, rfl⟩ ⟨v, v', hv, rfl, rfl⟩
    exact M.compare hu hv
  · rw [List.forall₂_map_left_iff, List.forall₂_map_right_iff]
    exact h.imp fun v v' hv => ⟨v, v', hv, rfl, rfl⟩

/-- **Corresponding simplexes have corresponding standings.** -/
theorem standing {a a' : Simplex} (h : M.Simplexes a a') :
    Alike M.Standings (a.standing n) (a'.standing n) := by
  have hslot : ∀ i, Alike Eq (entry a.order i) (entry a'.order i) := by
    intro i
    rw [order_eq h]
    exact Alike.entry (List.forall₂_same.mpr fun _ _ => rfl) i
  have hrank : ∀ i, Alike M.vertices (a.ofRank i) (a'.ofRank i) := by
    intro i
    refine (hslot i).bind ?_
    rintro slot _ rfl
    exact Alike.entry h slot
  have hothers : Alike (List.Forall₂ M.vertices) (a.ofRanksBelow n) (a'.ofRanksBelow n) := by
    rw [Simplex.ofRanksBelow, Simplex.ofRanksBelow, order_eq h]
    exact Alike.mapM (fun slot => Alike.entry h slot) _
  refine (hrank 0).bind fun best best' hbest => ?_
  refine (hrank (n - 1)).bind fun second second' hsecond => ?_
  refine (hslot n).bind ?_
  rintro slot _ rfl
  refine (Alike.entry h slot).bind fun worst worst' hworst => ?_
  refine hothers.bind fun others others' hforall => ?_
  have hpoints : List.Forall₂ M.points (others.map Vertex.point) (others'.map Vertex.point) := by
    rw [List.forall₂_map_left_iff, List.forall₂_map_right_iff]
    exact hforall.imp fun _ _ hv => M.point hv
  refine (M.mean hpoints).bind fun centroid centroid' hcentroid => ?_
  exact .ok ⟨hbest, hsecond, hworst, rfl, hcentroid⟩

lemma trial (h : M.Standings t t') {v v' : Vertex} (hv : M.vertices v v') (k : Float) :
    M.Coupled M.vertices (t.trial p v k) (t'.trial p' v' k) :=
  (check (M.toward h.centroid (M.point hv) k)).bind fun _ _ hx => M.evaluate hx

/-- **Corresponding standings lead to corresponding moves.** -/
theorem choose (h : M.Standings t t') (i i' : ℕ) :
    M.Coupled M.Moves (Move.choose p i t) (Move.choose p' i' t') := by
  refine (trial h h.worst _).bind fun r r' hr => ?_
  have hbest := M.compare h.best hr
  have htaken := and_congr hbest.le (M.compare hr h.secondWorst).lt
  refine .ite htaken (.pure ⟨.some hr, rfl⟩) (.ite hbest.gt ?_ ?_)
  · refine (trial h hr _).bind fun e e' he => ?_
    exact .ite (M.compare he hr).lt (.pure ⟨.some he, rfl⟩) (.pure ⟨.some hr, rfl⟩)
  · refine (trial h h.worst _).bind fun c c' hc => ?_
    exact .ite (M.compare hc h.worst).lt (.pure ⟨.some hc, rfl⟩) (.pure ⟨.none, rfl⟩)

lemma settle {a a' : Simplex} (h : M.Simplexes a a') (slot : ℕ) {v v' : Option Vertex}
    (hv : Option.Rel M.vertices v v') : M.Simplexes (a.settle slot v) (a'.settle slot v') := by
  cases hv with
  | none => exact h
  | some hv =>
    show List.Forall₂ M.vertices (a.set slot _) (a'.set slot _)
    induction h generalizing slot with
    | nil => exact .nil
    | cons hfirst hrest ih =>
      cases slot with
      | zero => exact .cons hv hrest
      | succ slot => exact .cons hfirst (ih slot)

/-- **Corresponding states lead to corresponding states.** -/
theorem iterate (h : M.States s s') :
    M.Coupled M.States (Search.iterate p n s) (Search.iterate p' n s') := by
  refine (check (standing h.simplex)).bind fun t t' ht => ?_
  refine (choose ht _ _).bind fun m m' hm => ?_
  refine (tell m.event m'.event).bind fun _ _ _ => .pure ?_
  refine ⟨?_, ?_, ?_⟩
  · rw [← ht.worstSlot]
    exact settle h.simplex _ hm.newcomer
  · rw [h.evaluations, hm.spent]
  · rw [h.evaluations]
    exact M.record h.trace ht.best _

theorem iterates (k : ℕ) (h : M.States s s') :
    M.Coupled M.States (Search.iterates p n k s) (Search.iterates p' n k s') := by
  induction k generalizing s s' with
  | zero => exact .pure h
  | succ k ih => exact (iterate h).bind fun _ _ hnext => ih hnext

/-! ## Searches -/

variable {points points' : List Point}

/-- Corresponding points are evaluated to corresponding simplexes. -/
lemma mapM_evaluate (h : List.Forall₂ M.points points points') :
    M.Coupled M.Simplexes (points.mapM (Vertex.evaluate p))
      (points'.mapM (Vertex.evaluate p')) := by
  have hpoint : ∀ x x', M.points x x' →
      M.Coupled M.vertices (Vertex.evaluate p x) (Vertex.evaluate p' x') := fun _ _ => M.evaluate
  exact Run.Coupled.mapM hpoint h

/-- **Searches from corresponding points** reach corresponding states, or fail together. -/
theorem explore (h : List.Forall₂ M.points points points') (maxIter : ℕ) :
    M.Coupled M.States (Search.explore p n points maxIter)
      (Search.explore p' n points' maxIter) := by
  refine (mapM_evaluate h).bind fun vs vs' hvs => ?_
  exact iterates maxIter ⟨hvs, h.length_eq, M.empty⟩

variable (M) in
/-- Results that are read off corresponding states. -/
def Results (r r' : SearchResult) : Prop :=
  ∃ s s', M.States s s' ∧
    SearchResult.ofTrace n p.constraintCount s.evaluations s.trace = .ok r ∧
    SearchResult.ofTrace n p'.constraintCount s'.evaluations s'.trace = .ok r'

/-- **Searches from corresponding points** come to corresponding results, or fail together, as long
as there is room for both traces and everything has its shape. -/
theorem search_of_fits (h : List.Forall₂ M.points points points') {maxIter : ℕ} (hn : 0 < n)
    (hdim : ∀ c ∈ p.constraints, Agrees n c.dimension)
    (hdim' : ∀ c ∈ p'.constraints, Agrees n c.dimension)
    (hpoints : ∀ x ∈ points, x.length = n) (hpoints' : ∀ x ∈ points', x.length = n)
    (hlength : points.length = n + 1) (hfits : Trace.Fits n p.constraintCount maxIter)
    (hfits' : Trace.Fits n p'.constraintCount maxIter) :
    M.Coupled M.Results (search p n points maxIter) (search p' n points' maxIter) := by
  intro j j' hj
  have hexplore := explore h maxIter j j' hj
  have hends : Ends p n True _ j _ := ends_explore hdim hn hpoints hlength maxIter j
  have hends' : Ends p' n True _ j' _ :=
    ends_explore hdim' hn hpoints' (h.length_eq ▸ hlength) maxIter j'
  rw [Search.search_of_fits hfits, Search.search_of_fits hfits', Run.exec_bind, Run.exec_bind]
  generalize (Search.explore p n points maxIter).exec j = out at hexplore hends
  generalize (Search.explore p' n points' maxIter).exec j' = out' at hexplore hends'
  cases hexplore with
  | failed cause journal => exact .failed cause journal
  | returned states journal =>
    cases hends with
    | returned shaped _ _ =>
      cases hends' with
      | returned shaped' _ _ =>
        obtain ⟨r, e, hr, hreport⟩ := Search.exists_exec_report shaped _
        obtain ⟨r', e', hr', hreport'⟩ := Search.exists_exec_report shaped' _
        dsimp only
        rw [hreport, hreport']
        exact .returned ⟨_, _, states, hr, hr'⟩ (M.told journal e e')

/-! ## Requests -/

/-- **Accepted requests that are mirrored** come to corresponding results, or fail together, as long
as there is room for both traces. -/
theorem run_of_fits {q : Problem σ} {q' : Problem τ} {o o' : Options} {start start' : Start}
    {h : q.Accepts o start} {h' : q'.Accepts o' start'}
    (M : Mirror h.penalty h'.penalty q.dimension) (hdim : q'.dimension = q.dimension)
    (hpoints : List.Forall₂ M.points (start.points q o) (start'.points q' o')) {maxIter : ℕ}
    (w : σ) (w' : τ) (hjournals : M.journals (start.journal q maxIter h.penalty w)
      (start'.journal q' maxIter h'.penalty w'))
    (hfits : Trace.Fits q.dimension q.constraintCount maxIter)
    (hfits' : Trace.Fits q'.dimension q'.constraintCount maxIter) :
    Together M.journals M.causes M.Results ((q.run o maxIter start).execIn w)
      ((q'.run o' maxIter start').execIn w') := by
  rw [h.exec_run_eq, h'.exec_run_eq, hdim]
  rw [hdim] at hfits'
  exact M.search_of_fits hpoints q.dimension_pos q.agrees_constraint (hdim ▸ q'.agrees_constraint)
    h.length_of_mem_points (hdim ▸ h'.length_of_mem_points) h.length_points hfits hfits' _ _
    hjournals

end Mirror

end NelderMead
