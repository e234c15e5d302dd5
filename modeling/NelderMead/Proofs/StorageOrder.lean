import NelderMead.Proofs.OrderOnly
import Mathlib.Data.List.Perm.Basic
import Mathlib.Data.List.Nodup

/-!
# The order of storage

A simplex stores its vertices in slots, and everything an iteration does with them goes through their
ranks.  Where no two vertices rank alike, the ranks belong to the vertices and not to the slots: the
best vertex, the worst one and the centroid, which is summed from the best on, are the same however
the vertices are stored.  So two searches whose first simplexes hold the same vertices in another
order come to the same result, bit for bit, as long as no tie turns up on the way.

* `Simplex.NoTies` — that no two vertices rank alike.
* `Simplex.byRank` — the vertices from the best to the worst; **`Simplex.byRank_eq_of_perm`** says
  that without ties they do not depend on the slots.
* **`Simplex.standing_eq_of_perm`** — neither does what an iteration reads off.
* `Search.Reordered`, **`Search.Reordered.iterate`** — states that hold the same vertices in another
  order, and one iteration from them.
* **`Problem.Accepts.search_reorder`**, **`Problem.Computes.storageOrder`** — searches, and runs from
  simplexes with the same rows in another order.
-/

namespace NelderMead

variable {σ : Type}

/-! ## Ties -/

namespace Simplex

variable {s s' : Simplex} {n : ℕ}

/-- **No two vertices rank alike.** -/
def NoTies (s : Simplex) : Prop :=
  s.Pairwise fun u v => rankCmp u.augmented v.augmented ≠ .eq

instance (s : Simplex) : Decidable s.NoTies := inferInstanceAs (Decidable (List.Pairwise _ _))

lemma NoTies.eq_of_key_eq (h : s.NoTies) {u v : Vertex} (hu : u ∈ s) (hv : v ∈ s)
    (hkey : u.key = v.key) : u = v := by
  have hnodup : (s.map Vertex.key).Nodup := by
    rw [List.Nodup, List.pairwise_map]
    exact h.imp fun hne heq => hne ((rankCmp_eq_eq_iff _ _).mpr heq)
  exact List.inj_on_of_nodup_map hnodup hu hv hkey

/-! ## Vertices by rank -/

/-- **The vertices from the best to the worst.** -/
def byRank (s : Simplex) : List Vertex := s.order.filterMap (s[·]?)

lemma forall₂_filterMap_getElem? {slots : List ℕ} (h : ∀ slot ∈ slots, slot < s.length) :
    List.Forall₂ (fun slot v => s[slot]? = some v) slots (slots.filterMap (s[·]?)) := by
  induction slots with
  | nil => exact .nil
  | cons slot slots ih =>
    obtain ⟨hslot, hslots⟩ := List.forall_mem_cons.mp h
    rw [List.filterMap_cons_some (List.getElem?_eq_getElem hslot)]
    exact .cons (List.getElem?_eq_getElem hslot) (ih hslots)

lemma forall₂_byRank (s : Simplex) :
    List.Forall₂ (fun slot v => s[slot]? = some v) s.order s.byRank := by
  refine forall₂_filterMap_getElem? fun slot hslot => ?_
  exact List.mem_range.mp (s.order_perm.mem_iff.mp hslot)

lemma byRank_perm (s : Simplex) : s.byRank.Perm s := by
  have hslots : (List.range s.length).filterMap (s[·]?) = s := by
    induction s with
    | nil => rfl
    | cons v s ih =>
      rw [List.length_cons, List.range_succ_eq_map, List.filterMap_cons, List.filterMap_map]
      exact congrArg (v :: ·) ih
  exact (s.order_perm.filterMap _).trans (.of_eq hslots)

/-- The vertex of a rank is the one that `byRank` has there. -/
lemma getElem?_byRank {i slot : ℕ} {v : Vertex} (hslot : s.order[i]? = some slot)
    (hv : s[slot]? = some v) : s.byRank[i]? = some v := by
  have h := s.forall₂_byRank
  obtain ⟨hi, rfl⟩ := List.getElem?_eq_some_iff.mp hslot
  have hi' : i < s.byRank.length := h.length_eq ▸ hi
  rw [List.getElem?_eq_getElem hi', ← hv]
  exact (h.get hi hi').symm

lemma byRank_sorted (s : Simplex) : s.byRank.Pairwise fun u v => u.key ≤ v.key := by
  have h := s.forall₂_byRank
  rw [List.pairwise_iff_getElem]
  intro i k hi hk hik
  have hi' : i < s.order.length := h.length_eq ▸ hi
  have hk' : k < s.order.length := h.length_eq ▸ hk
  exact key_le_of_rank hik.le (List.getElem?_eq_getElem hi') (List.getElem?_eq_getElem hk')
    (h.get hi' hi) (h.get hk' hk)

/-- **Without ties the vertices by rank do not depend on the slots.** -/
theorem byRank_eq_of_perm (hperm : s'.Perm s) (hties : s.NoTies) : s'.byRank = s.byRank := by
  have hvertices : s'.byRank.Perm s.byRank :=
    (s'.byRank_perm.trans hperm).trans s.byRank_perm.symm
  refine List.Perm.eq_of_pairwise ?_ s'.byRank_sorted s.byRank_sorted hvertices
  intro u v hu hv huv hvu
  exact hties.eq_of_key_eq ((s'.byRank_perm.trans hperm).mem_iff.mp hu)
    (s.byRank_perm.mem_iff.mp hv) (huv.antisymm hvu)

/-! ## Standings -/

lemma forall₂_of_mapM_entry {slots : List ℕ} {vs : List Vertex}
    (h : slots.mapM (entry s) = .ok vs) :
    List.Forall₂ (fun slot v => s[slot]? = some v) slots vs := by
  induction slots generalizing vs with
  | nil =>
    obtain rfl := Except.ok.inj h
    exact .nil
  | cons slot slots ih =>
    rw [List.mapM_cons] at h
    obtain ⟨v, hv, h⟩ := bind_eq_ok_iff.mp h
    obtain ⟨ws, hws, h⟩ := bind_eq_ok_iff.mp h
    obtain rfl := Except.ok.inj h
    exact .cons (entry_eq_ok_iff.mp hv) (ih hws)

lemma take_byRank {vs : List Vertex} (h : s.ofRanksBelow n = .ok vs) : s.byRank.take n = vs := by
  have hvs := forall₂_of_mapM_entry h
  have hrank := List.forall₂_take n s.forall₂_byRank
  refine List.ext_getElem (hrank.length_eq.symm.trans hvs.length_eq) fun i hi hi' => ?_
  have hslot : i < (s.order.take n).length := hrank.length_eq ▸ hi
  exact Option.some.inj ((hrank.get hslot hi).symm.trans (hvs.get hslot hi'))

/-- **What is read off the vertices by rank**: all of a standing but the slot. -/
structure ReadsRanks (n : ℕ) (vs : List Vertex) (t : Standing) : Prop where
  best : vs[0]? = some t.best
  secondWorst : vs[n - 1]? = some t.secondWorst
  worst : vs[n]? = some t.worst
  centroid : Point.mean n ((vs.take n).map Vertex.point) = .ok t.centroid

lemma readsRanks_of_standing {t : Standing} (h : s.standing n = .ok t) :
    ReadsRanks n s.byRank t := by
  obtain ⟨b, l, hslots⟩ := slots_of_standing h
  obtain ⟨others, hothers, hcentroid⟩ := hslots.centroid
  exact
    { best := getElem?_byRank hslots.rank_best hslots.best
      secondWorst := getElem?_byRank hslots.rank_secondWorst hslots.secondWorst
      worst := getElem?_byRank hslots.rank_worst hslots.worst
      centroid := by rwa [take_byRank hothers] }

/-- **Without ties a standing does not depend on the slots**, that of the worst vertex apart. -/
theorem standing_eq_of_perm (hperm : s'.Perm s) (hties : s.NoTies) {t t' : Standing}
    (ht : s.standing n = .ok t) (ht' : s'.standing n = .ok t') :
    ∃ slot, t' = { t with worstSlot := slot } := by
  have h := readsRanks_of_standing ht
  have h' := readsRanks_of_standing ht'
  rw [byRank_eq_of_perm hperm hties] at h'
  refine ⟨t'.worstSlot, ?_⟩
  cases t
  cases t'
  rw [Standing.mk.injEq]
  exact ⟨Option.some.inj (h'.best.symm.trans h.best),
    Option.some.inj (h'.secondWorst.symm.trans h.secondWorst),
    Option.some.inj (h'.worst.symm.trans h.worst), rfl,
    Except.ok.inj (h'.centroid.symm.trans h.centroid)⟩

/-- The slots of one vertex are given to the same newcomer. -/
lemma settle_perm (hperm : s'.Perm s) {slot slot' : ℕ} {u : Vertex} (hu : s[slot]? = some u)
    (hu' : s'[slot']? = some u) (new : Option Vertex) :
    (s'.settle slot' new).Perm (s.settle slot new) := by
  cases new with
  | none => exact hperm
  | some v =>
    have herase := (List.perm_eraseIdx_of_getElem?_eq (hu'.trans hu.symm)).mpr hperm
    have hset := List.set_perm_cons_eraseIdx (List.getElem?_eq_some_iff.mp hu).1 v
    have hset' := List.set_perm_cons_eraseIdx (List.getElem?_eq_some_iff.mp hu').1 v
    exact (hset'.trans (herase.cons v)).trans hset.symm

end Simplex

/-! ## Searches -/

/-- **The same vertices in another order of storage**, with all else the same. -/
structure Search.Reordered (s s' : Search) : Prop where
  simplex : s'.simplex.Perm s.simplex
  evaluations : s'.evaluations = s.evaluations
  trace : s'.trace = s.trace

lemma Search.Shaped.reorder {n m : ℕ} {s s' : Search} (hs : s.Shaped n m) (h : s.Reordered s') :
    s'.Shaped n m where
  length_simplex := h.simplex.length_eq.trans hs.length_simplex
  vertex v hv := hs.vertex v (h.simplex.mem_iff.mp hv)
  row := h.trace ▸ hs.row

section Reordered

variable {q : Problem σ} {o : Options} {start : Start} {f : Point → Float} {g : Point → Point}
  {s s' : Search}

/-- **A search whose functions compute values** corresponds to itself, whatever its traces and its
journals are. -/
def Mirror.ofComputes (h : q.Accepts o start) (hq : q.Computes f g) :
    Mirror h.penalty h.penalty q.dimension where
  toPointRelation := Point.sharing q.dimension
  vertices v v' := v = v' ∧ v.point.length = q.dimension
  traces _ _ := True
  causes e e' := e' = e ∧ ∃ fault, e = .fault fault
  journals _ _ := True
  point := fun hv => ⟨congrArg Vertex.point hv.1, hv.2⟩
  compare := by
    rintro u _ v _ ⟨rfl, -⟩ ⟨rfl, -⟩
    exact ⟨.rfl, .rfl, rfl, rfl⟩
  evaluate := by
    rintro x _ ⟨rfl, hx⟩ j j' -
    obtain ⟨k, hexec, -⟩ := h.exec_evaluate hq hx j
    obtain ⟨k', hexec', -⟩ := h.exec_evaluate hq hx j'
    rw [hexec, hexec']
    exact .returned ⟨rfl, hx⟩ trivial
  empty := trivial
  record := fun _ _ _ => trivial
  told := fun _ _ _ => trivial
  fault fault := ⟨rfl, fault, rfl⟩

lemma Mirror.newcomer_eq_of_computes {h : q.Accepts o start} {hq : q.Computes f g} {m m' : Move}
    (hm : (Mirror.ofComputes h hq).Moves m m') : m'.newcomer = m.newcomer := by
  obtain ⟨new, spent, event⟩ := m
  obtain ⟨new', spent', event'⟩ := m'
  cases hm.newcomer with
  | none => rfl
  | some hv => exact congrArg some hv.1.symm

/-- **An iteration without ties** leads from the same vertices in another order to such vertices. -/
theorem Search.Reordered.iterate (h : q.Accepts o start) (hq : q.Computes f g)
    (hstates : s.Reordered s') (hs : s.Shaped q.dimension h.penalty.constraintCount)
    (hties : s.simplex.NoTies) :
    (Mirror.ofComputes h hq).Coupled Reordered (Search.iterate h.penalty q.dimension s)
      (Search.iterate h.penalty q.dimension s') := by
  have hs' := hs.reorder hstates
  obtain ⟨t, ht⟩ := hs.exists_standing
  obtain ⟨t', ht'⟩ := hs'.exists_standing
  have hd := Simplex.describes_of_standing q.dimension_pos hs.length_simplex ht
  have hd' := Simplex.describes_of_standing q.dimension_pos hs'.length_simplex ht'
  obtain ⟨slot, rfl⟩ := Simplex.standing_eq_of_perm hstates.simplex hties ht ht'
  have hself : (Mirror.ofComputes h hq).Standings t t :=
    { best := ⟨rfl, (hs.vertex _ hd.best_mem).point⟩
      secondWorst := ⟨rfl, (hs.vertex _ hd.secondWorst_mem).point⟩
      worst := ⟨rfl, (hs.vertex _ hd.worst_mem).point⟩
      worstSlot := rfl
      centroid := ⟨rfl, hd.length_centroid⟩ }
  -- no move is chosen by the slot of the worst vertex
  have hchoose : Move.choose h.penalty s'.trace.size { t with worstSlot := slot } =
      Move.choose h.penalty s'.trace.size t := rfl
  rw [Search.iterate, Search.iterate, ht, ht']
  refine Run.Coupled.bind (Q := fun u u' => u = t ∧ u' = { t with worstSlot := slot })
    (.pure ⟨rfl, rfl⟩) ?_
  rintro _ _ ⟨rfl, rfl⟩
  rw [hchoose]
  refine (Mirror.choose hself _ _).bind fun m m' hm => ?_
  refine (Mirror.tell m.event m'.event).bind fun _ _ _ => .pure ?_
  refine ⟨?_, ?_, ?_⟩
  · rw [Mirror.newcomer_eq_of_computes hm]
    exact Simplex.settle_perm hstates.simplex hd.worst hd'.worst m.newcomer
  · rw [hstates.evaluations, hm.spent]
  · rw [hstates.evaluations, hstates.trace]

/-- Iterations without ties do so together. -/
lemma Search.Reordered.iterates (h : q.Accepts o start) (hq : q.Computes f g) {l : ℕ}
    (hstates : s.Reordered s') (hs : s.Shaped q.dimension h.penalty.constraintCount) {j : Journal σ}
    (hties : ∀ k < l, ∀ u j', (Search.iterates h.penalty q.dimension k s).exec j = (.ok u, j') →
      u.simplex.NoTies) (j' : Journal σ) :
    Together (fun _ _ => True) (Mirror.ofComputes h hq).causes Reordered
      ((Search.iterates h.penalty q.dimension l s).exec j)
      ((Search.iterates h.penalty q.dimension l s').exec j') := by
  induction l generalizing s s' j j' with
  | zero => exact .returned hstates trivial
  | succ l ih =>
    have hnext := hstates.iterate h hq hs (hties 0 (Nat.succ_pos l) s j rfl) j j' trivial
    have hends : Ends h.penalty q.dimension True _ j
        ((Search.iterate h.penalty q.dimension s).exec j) :=
      ends_iterate q.agrees_constraint q.dimension_pos hs j
    have hlater : ∀ {u : Search} {j₁ : Journal σ},
        (Search.iterate h.penalty q.dimension s).exec j = (.ok u, j₁) →
        ∀ k < l, ∀ v j₂, (Search.iterates h.penalty q.dimension k u).exec j₁ = (.ok v, j₂) →
          v.simplex.NoTies := by
      intro u j₁ hu k hk v j₂ hv
      exact hties (k + 1) (Nat.succ_lt_succ hk) v j₂
        (Run.exec_bind_eq_ok.mpr ⟨u, j₁, hu, hv⟩)
    rw [Search.iterates, Search.iterates, Run.exec_bind, Run.exec_bind]
    generalize (Search.iterate h.penalty q.dimension s).exec j = out at hnext hends hlater
    generalize (Search.iterate h.penalty q.dimension s').exec j' = out' at hnext
    cases hnext with
    | failed cause journal => exact .failed cause journal
    | returned states journal =>
      cases hends with
      | returned shaped _ _ => exact ih states shaped (hlater rfl) _

/-! ## Runs -/

/-- If there is room, the state before the first iteration is visited. -/
lemma Search.visits_first {p : PenaltyFunction σ} {n maxIter : ℕ} {points : List Point}
    {vs : Simplex} {j₀ j : Journal σ} (hfits : Trace.Fits n p.constraintCount maxIter)
    (hvs : (points.mapM (Vertex.evaluate p)).exec j₀ = (.ok vs, j)) :
    Search.Visits p n points maxIter j₀ 0 ⟨vs, points.length, {}⟩ j := by
  refine ⟨Nat.zero_le _, Run.exec_bind_eq_ok.mpr ⟨_, j, ?_, rfl⟩⟩
  refine Run.exec_bind_eq_ok.mpr ⟨vs, j, hvs, ?_⟩
  rw [Trace.reserve_of_fits hfits]
  rfl

/-- Where there is room, an accepted request whose functions compute values has a result. -/
lemma Problem.Accepts.exists_result (h : q.Accepts o start) (hq : q.Computes f g) {maxIter : ℕ}
    (hfits : Trace.Fits q.dimension q.constraintCount maxIter) (w : σ) :
    ∃ r, ((q.run o maxIter start).execIn w).1 = .ok r := by
  obtain ⟨r, j, hrun⟩ := hq.neverFails.exists_result h hfits w
  exact ⟨r, congrArg Prod.fst hrun⟩

/-- A report is read off counts and rows. -/
lemma Search.Reordered.report_eq (p : PenaltyFunction σ) (n : ℕ) (h : s.Reordered s') :
    report p n s' = report p n s := by
  rw [report, report, h.evaluations, h.trace]

/-- What a report says does not depend on the journal. -/
lemma Search.fst_exec_report (p : PenaltyFunction σ) (n : ℕ) (s : Search) (j j' : Journal σ) :
    ((report p n s).exec j').1 = ((report p n s).exec j).1 := by
  rw [report, Run.exec_bind, Run.exec_bind]
  cases SearchResult.ofTrace n p.constraintCount s.evaluations s.trace with
  | error fault => rfl
  | ok r =>
    rw [Run.exec_check_ok, Run.exec_check_ok]
    dsimp only
    rw [Run.exec_bind, Run.exec_bind]
    cases r.fmin <;> rfl

/-- **Searches without ties** from the same points in another order come to the same outcome. -/
theorem Problem.Accepts.search_reorder (h : q.Accepts o start) (hq : q.Computes f g)
    {points points' : List Point} (hperm : points'.Perm points)
    (hlength : points.length = q.dimension + 1) (hpoints : ∀ x ∈ points, x.length = q.dimension)
    {maxIter : ℕ} {j : Journal σ}
    (hties : ∀ k < maxIter, ∀ s j', Search.Visits h.penalty q.dimension points maxIter j k s j' →
      s.simplex.NoTies) (j' : Journal σ) :
    ((search h.penalty q.dimension points' maxIter).exec j').1 =
      ((search h.penalty q.dimension points maxIter).exec j).1 := by
  have hpoints' : ∀ x ∈ points', x.length = q.dimension := fun x hx =>
    hpoints x (hperm.mem_iff.mp hx)
  obtain ⟨j₁, hvs⟩ := h.exec_mapM_evaluate hq hpoints j
  obtain ⟨j₁', hvs'⟩ := h.exec_mapM_evaluate hq hpoints' j'
  have hshaped : ∀ v ∈ points.map (h.vertexAt f g),
      v.sample.Shaped q.dimension h.penalty.constraintCount := by
    refine List.forall_mem_map.mpr fun x hx => ⟨hpoints x hx, ?_⟩
    exact (hq.constraints x (hpoints x hx)).length_eq.symm
  rw [search_eq, search_eq, Run.exec_bind, Run.exec_bind, hvs, hvs']
  dsimp only
  by_cases hfits : Trace.Fits q.dimension q.constraintCount maxIter
  · have hstates : Search.Reordered ⟨points.map (h.vertexAt f g), points.length, {}⟩
        ⟨points'.map (h.vertexAt f g), points'.length, {}⟩ :=
      ⟨hperm.map _, hperm.length_eq, rfl⟩
    have hnoTies : ∀ k < maxIter, ∀ s j₂, (Search.iterates h.penalty q.dimension k
        ⟨points.map (h.vertexAt f g), points.length, {}⟩).exec j₁ = (.ok s, j₂) →
        s.simplex.NoTies := by
      intro k hk s j₂ hrun
      have hvisits := (Search.visits_first hfits hvs).extend hrun (by omega)
      rw [Nat.zero_add] at hvisits
      exact hties k hk s j₂ hvisits
    have htogether := hstates.iterates h hq
      ⟨(List.length_map _).trans hlength, hshaped, List.forall_mem_nil _⟩ hnoTies j₁'
    rw [Search.goOn_of_fits hfits, Search.goOn_of_fits hfits, Run.exec_bind, Run.exec_bind]
    generalize (Search.iterates h.penalty q.dimension maxIter
      ⟨points.map (h.vertexAt f g), points.length, {}⟩).exec j₁ = out at htogether
    generalize (Search.iterates h.penalty q.dimension maxIter
      ⟨points'.map (h.vertexAt f g), points'.length, {}⟩).exec j₁' = out' at htogether
    cases htogether with
    | failed cause journal =>
      rw [cause.1]
    | returned states journal =>
      dsimp only
      rw [states.report_eq]
      exact Search.fst_exec_report _ _ _ _ _
  · rw [Search.goOn_of_not_fits hfits, Search.goOn_of_not_fits hfits]

variable {S S' : Matrix}

/-- A given simplex is objected to for its shape. -/
lemma Problem.objection?_reorder (hperm : S'.rows.Perm S.rows) (hcols : S'.cols = S.cols) :
    q.objection? o (.given S') = q.objection? o (.given S) := by
  rw [objection?, objection?, Matrix.rowCount, Matrix.rowCount, hperm.length_eq, hcols]

/-- **The order of storage does not matter without ties.**  From the same rows in another order a
run comes to the same outcome, which is a result wherever there is room for the trace.  Only the
states before an iteration have to be free of ties, and only those of one of the runs. -/
theorem Problem.Computes.storageOrder (hq : q.Computes f g) (hperm : S'.rows.Perm S.rows)
    (hcols : S'.cols = S.cols) {maxIter : ℕ} {w : σ}
    (hties : ∀ k < maxIter, ∀ s j, q.Visits o maxIter (.given S) w k s j → s.simplex.NoTies)
    (w' : σ) :
    ((q.minimizeFrom S' maxIter o).execIn w').1 = ((q.minimizeFrom S maxIter o).execIn w).1 ∧
      (q.Accepts o (.given S) → Trace.Fits q.dimension q.constraintCount maxIter →
        ∃ r, ((q.minimizeFrom S maxIter o).execIn w).1 = .ok r) := by
  refine ⟨?_, fun h hfits => h.exists_result hq hfits w⟩
  have hobjection := Problem.objection?_reorder (q := q) (o := o) hperm hcols
  rcases hcase : q.objection? o (.given S) with _ | e
  · have h := Problem.objection?_eq_none_iff.mp hcase
    have h' := Problem.objection?_eq_none_iff.mp (hobjection.trans hcase)
    have hrun := h.exec_run_eq maxIter w
    have hrun' := h'.exec_run_eq maxIter w'
    rw [Problem.run] at hrun hrun'
    rw [hrun, hrun']
    exact h.search_reorder hq hperm h.length_points h.length_of_mem_points
      (fun k hk s j hs => hties k hk s j ⟨h, hs⟩) _
  · obtain ⟨j, hfail, -⟩ := (Problem.refuses_of_objection hcase).2 maxIter w
    obtain ⟨j', hfail', -⟩ :=
      (Problem.refuses_of_objection (hobjection.trans hcase)).2 maxIter w'
    rw [Problem.run] at hfail hfail'
    rw [hfail, hfail']

/-! ## A run on a plane -/

/-- The sum of both coordinates has to be at least one. -/
def sumAtLeastOne : LinearConstraint := ⟨[-1.0, -1.0], 1.0⟩

/-- The square of the distance from the origin of a plane. -/
def bowl : Problem Unit where
  objective := .ofPoint fun x => .ok (squareValue x)
  x0 := [1.0, 1.0]
  bounds := ⟨[0.0, 0.0], [4.0, 4.0], rfl, List.cons_ne_nil _ _, by decide +kernel⟩
  constraints := [.linear sumAtLeastOne]
  x0_ne_nil := List.cons_ne_nil _ _
  length_bounds := rfl
  agrees_objective := by decide
  agrees_constraint := by decide

lemma computes_bowl :
    bowl.Computes squareValue fun x => [(sumAtLeastOne.value x).toOption.getD 0.0] where
  objective x _ w := rfl
  constraints x hx := by
    obtain ⟨v, hv, hevaluate⟩ := Constraint.exists_linear (g := sumAtLeastOne) hx.symm
    rw [hv]
    exact .cons hevaluate .nil

/-- A triangle to begin with. -/
def triangle : Matrix := ⟨2, [[3.0, 1.0], [1.0, 2.5], [2.0, 4.0]], by decide⟩

/-- The same triangle from another corner on. -/
def turnedTriangle : Matrix := ⟨2, [[2.0, 4.0], [3.0, 1.0], [1.0, 2.5]], by decide⟩

lemma accepts_bowl : bowl.Accepts {} (.given triangle) :=
  ⟨by decide +kernel, by decide +kernel, rfl, rfl⟩

lemma noTies_bowl : ∀ k < 3, ∀ s j, bowl.Visits {} 3 (.given triangle) () k s j →
    s.simplex.NoTies := by
  have hchecked : ∀ k < 3, (match (Search.first accepts_bowl.penalty 2 triangle.rows 3 >>=
      Search.iterates accepts_bowl.penalty 2 k).exec { world := () } with
    | (.ok s, _) => decide s.simplex.NoTies
    | (.error _, _) => true) = true := by
    decide +kernel
  rintro k hk s j ⟨_, _, hrun⟩
  have hstate : (Search.first accepts_bowl.penalty 2 triangle.rows 3 >>=
      Search.iterates accepts_bowl.penalty 2 k).exec { world := () } = (.ok s, j) := hrun
  have hstep := hchecked k hk
  rw [hstate] at hstep
  exact of_decide_eq_true hstep

theorem storageOrder_bowl : turnedTriangle.rows.Perm triangle.rows ∧
    ∃ r, ((bowl.minimizeFrom triangle 3 {}).execIn ()).1 = .ok r ∧
      ((bowl.minimizeFrom turnedTriangle 3 {}).execIn ()).1 = .ok r := by
  have hperm : turnedTriangle.rows.Perm triangle.rows :=
    (List.perm_append_singleton [2.0, 4.0] [[3.0, 1.0], [1.0, 2.5]]).symm
  obtain ⟨hsame, hresult⟩ := computes_bowl.storageOrder hperm rfl noTies_bowl ()
  obtain ⟨r, hr⟩ := hresult accepts_bowl (by decide +kernel)
  exact ⟨hperm, r, hr, hsame.trans hr⟩

end Reordered

end NelderMead
