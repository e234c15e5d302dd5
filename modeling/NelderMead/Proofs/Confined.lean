import NelderMead.Proofs.StorageOrder

/-!
# Searches that stay in a set

The points that an iteration asks for are computed from points of the simplex, by means and by
steps.  So a set that is closed under both is not left by a search that begins in it.

* `Point.ClosedUnder` — that a set is closed under what an iteration computes.
* `Simplex.centroid_mem`, `Move.Chosen.confined` — the centroid and the points of one iteration.
* **`Progress.confined`** — the points of a whole search.
-/

namespace NelderMead

variable {σ : Type} {p : PenaltyFunction σ} {n : ℕ} {S : Point → Prop}

/-- **The set is closed** under the mean of `n` points and under steps of finite length. -/
structure Point.ClosedUnder (n : ℕ) (S : Point → Prop) : Prop where
  mean : ∀ {ps c}, ps.length = n → (∀ x ∈ ps, S x) → Point.mean n ps = .ok c → S c
  toward : ∀ {c t z k}, S c → S t → k.isFinite = true → Point.toward c t k = .ok z → S z

/-! ## One iteration -/

/-- The centroid is the mean of `n` points of the simplex. -/
lemma Simplex.centroid_mem (hS : Point.ClosedUnder n S) {s : Simplex} (hlen : s.length = n + 1)
    (hs : ∀ v ∈ s, S v.point) {t : Standing} (ht : s.standing n = .ok t) : S t.centroid := by
  have hranks := readsRanks_of_standing ht
  refine hS.mean ?_ ?_ hranks.centroid
  · rw [List.length_map, List.length_take, s.byRank_perm.length_eq, hlen]
    omega
  · refine List.forall_mem_map.mpr fun v hv => hs v ?_
    exact s.byRank_perm.mem_iff.mp (List.mem_of_mem_take hv)

/-- All steps have finite lengths. -/
lemma isFinite_steps : (-reflection).isFinite = true ∧ expansion.isFinite = true ∧
    contraction.isFinite = true := by
  decide +kernel

/-- **The points of an iteration** are steps from the centroid. -/
lemma Move.Chosen.confined (hS : Point.ClosedUnder n S) {i : ℕ} {t : Standing} {m : Move}
    {vs : List Vertex} (h : m.Chosen i t vs) (hcentroid : S t.centroid) (hworst : S t.worst.point) :
    ∀ v ∈ vs, S v.point := by
  have hstep : ∀ {target v : Vertex} {k : Float}, S target.point → k.isFinite = true →
      t.Reaches target k v → S v.point := fun htarget hk hv => hS.toward hcentroid htarget hk hv
  obtain ⟨hreflection, hexpansion, hcontraction⟩ := isFinite_steps
  cases h with
  | reflection reflected =>
    exact List.forall_mem_singleton.mpr (hstep hworst hreflection reflected)
  | expansion reflected expanded | expansionRejected reflected expanded =>
    have hr := hstep hworst hreflection reflected
    exact List.forall_mem_cons.mpr
      ⟨hr, List.forall_mem_singleton.mpr (hstep hr hexpansion expanded)⟩
  | contraction reflected contracted | contractionRejected reflected contracted =>
    exact List.forall_mem_cons.mpr ⟨hstep hworst hreflection reflected,
      List.forall_mem_singleton.mpr (hstep hworst hcontraction contracted)⟩

/-! ## Searches -/

/-- **A search stays in a closed set**: from a state that it has reached there, all it evaluates
lies there. -/
theorem Progress.confined (hS : Point.ClosedUnder n S) (hn : 0 < n) {points : List Point}
    (hpoints : points.length = n + 1) {j₀ j j' : Journal σ} {k l : ℕ} {vs : List Vertex}
    {s t : Search} (h : Progress p n points j₀ k vs s j) (hvs : ∀ v ∈ vs, S v.point)
    (hrun : (Search.iterates p n l s).exec j = (.ok t, j')) :
    ∃ ws, Progress p n points j₀ (k + l) (vs ++ ws) t j' ∧ ∀ v ∈ ws, S v.point := by
  induction l generalizing k vs s j with
  | zero =>
    obtain ⟨rfl, rfl⟩ := Run.exec_pure_eq_ok.mp hrun
    exact ⟨[], by rwa [List.append_nil], List.forall_mem_nil _⟩
  | succ l ih =>
    obtain ⟨u, j₁, hu, hrest⟩ := Run.exec_bind_eq_ok.mp hrun
    obtain ⟨t', m, ws, j₂, hdecides, hchosen, hevaluated, rfl, rfl⟩ := Search.next_of_exec hu
    have hlen := h.length_simplex.trans hpoints
    have hdescribes := Simplex.describes_of_standing hn hlen hdecides.1
    have hsimplex : ∀ v ∈ s.simplex, S v.point := fun v hv => hvs v (h.simplex_subset hv)
    have hws := hchosen.confined hS (Simplex.centroid_mem hS hlen hsimplex hdecides.1)
      (hsimplex _ hdescribes.worst_mem)
    obtain ⟨ws', hprogress, hws'⟩ := ih (h.iterate hdescribes hchosen hevaluated)
      (List.forall_mem_append.mpr ⟨hvs, hws⟩) hrest
    refine ⟨ws ++ ws', ?_, List.forall_mem_append.mpr ⟨hws, hws'⟩⟩
    rwa [← List.append_assoc, ← Nat.add_assoc, Nat.add_right_comm]

end NelderMead
