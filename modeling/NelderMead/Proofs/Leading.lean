import NelderMead.Proofs.EntryPoints

/-!
# No improvement is lost

The best vertex of the simplex is as good as everything that was evaluated, rejected points
included, as long as the search began with numbers.

The invariant has two parts.  All vertices of the simplex stay numbers, because what is taken was
compared and found less.  And every evaluated vertex is matched by a vertex of the simplex with no
larger key: a slot never gets worse, and what a move evaluates without taking it is no better than
the newcomer or the best vertex.

* `Progress.isNaN_simplex`, **`Progress.exists_le`** — the two parts.
* `Leads`, `Progress.leads` — what a row says of the evaluations before it.
* **`Problem.Completes.leading`** — the same of a result.
-/

namespace NelderMead

variable {σ : Type}

namespace Progress

variable {p : PenaltyFunction σ} {n k : ℕ} {points : List Point} {j₀ j : Journal σ}
  {vs ws : List Vertex} {s : Search}

lemma length_points_le (h : Progress p n points j₀ k vs s j) : points.length ≤ vs.length := by
  have hle := h.points_prefix.length_le
  rwa [List.length_map] at hle

lemma take_append (h : Progress p n points j₀ k vs s j) (ws : List Vertex) :
    (vs ++ ws).take points.length = vs.take points.length :=
  List.take_append_of_le_length h.length_points_le

lemma isNaN_simplex (h : Progress p n points j₀ k vs s j)
    (hfirst : ∀ v ∈ vs.take points.length, v.augmented.isNaN = false) :
    ∀ v ∈ s.simplex, v.augmented.isNaN = false := by
  induction h with
  | first points_eq =>
    rwa [← points_eq, List.length_map, List.take_length] at hfirst
  | iterate before describes chosen evaluated ih =>
    rw [before.take_append] at hfirst
    intro v hv
    rcases Simplex.mem_settle hv with hv | hv
    · exact ih hfirst v hv
    · exact chosen.newcomer_isNaN hv

/-- **Every evaluated vertex is matched** by a vertex of the simplex that is as good. -/
theorem exists_le (h : Progress p n points j₀ k vs s j)
    (hfirst : ∀ v ∈ vs.take points.length, v.augmented.isNaN = false) :
    ∀ u ∈ vs, ∃ v ∈ s.simplex, v.key ≤ u.key := by
  induction h with
  | first =>
    intro u hu
    exact ⟨u, hu, le_rfl⟩
  | @iterate k vs ws s j j₁ t m before describes chosen evaluated ih =>
    rw [before.take_append] at hfirst
    have hnoWorse := Search.noWorse_next describes chosen
    have hworst := before.isNaN_simplex hfirst _ describes.worst_mem
    intro u hu
    rcases List.mem_append.mp hu with hu | hu
    · obtain ⟨v, hv, hle⟩ := ih hfirst u hu
      obtain ⟨v', hv', hle'⟩ := hnoWorse.exists_le hv
      exact ⟨v', hv', hle'.trans hle⟩
    · rcases chosen.covered describes hworst hu with ⟨v, hv, hle⟩ | hle
      · exact ⟨v, Simplex.newcomer_mem_settle describes.worst hv, hle⟩
      · obtain ⟨v, hv, hle'⟩ := hnoWorse.exists_le describes.best_mem
        exact ⟨v, hv, hle'.trans hle⟩

end Progress

/-! ## Rows -/

/-- **A row leads** the samples before it: its value is a number and ranks behind none of theirs. -/
structure Leads (p : PenaltyFunction σ) (ys : List Sample) (row : Row) : Prop where
  evaluations_le : row.evaluations ≤ ys.length
  isNaN_eq : (p.augmentedOf row.current).isNaN = false
  rankKey_le : ∀ y ∈ ys.take row.evaluations,
    rankKey (p.augmentedOf row.current) ≤ rankKey (p.augmentedOf y)

variable {p : PenaltyFunction σ}

lemma Leads.append {ys : List Sample} {row : Row} (h : Leads p ys row) (zs : List Sample) :
    Leads p (ys ++ zs) row where
  evaluations_le := by
    rw [List.length_append]
    exact h.evaluations_le.trans (Nat.le_add_right _ _)
  isNaN_eq := h.isNaN_eq
  rankKey_le := by
    rw [List.take_append_of_le_length h.evaluations_le]
    exact h.rankKey_le

namespace Progress

variable {n k : ℕ} {points : List Point} {j₀ j : Journal σ} {vs : List Vertex} {s : Search}

lemma augmentedOf_sample (h : Progress p n points j₀ k vs s j) {v : Vertex} (hv : v ∈ vs) :
    p.augmentedOf v.sample = v.augmented :=
  (h.consistent v hv).augmentedOf_sample

/-- The search begins with numbers if its first samples have such values. -/
lemma isNaN_first (h : Progress p n points j₀ k vs s j)
    (hfirst : ∀ y ∈ (vs.map Vertex.sample).take points.length,
      (p.augmentedOf y).isNaN = false) :
    ∀ v ∈ vs.take points.length, v.augmented.isNaN = false := by
  intro v hv
  rw [← h.augmentedOf_sample (List.mem_of_mem_take hv)]
  refine hfirst _ ?_
  rw [← List.map_take]
  exact List.mem_map_of_mem hv

/-- **Every row leads.** -/
theorem leads (h : Progress p n points j₀ k vs s j)
    (hfirst : ∀ v ∈ vs.take points.length, v.augmented.isNaN = false) :
    ∀ row ∈ s.trace.rows.toList, Leads p (vs.map Vertex.sample) row := by
  induction h with
  | first => exact List.forall_mem_nil _
  | @iterate k vs ws s j j₁ t m before describes chosen evaluated ih =>
    rw [before.take_append] at hfirst
    rw [Search.rows_next, List.map_append]
    refine List.forall_mem_append.mpr ⟨fun row hrow => (ih hfirst row hrow).append _, ?_⟩
    have hbest := before.augmentedOf_sample (before.simplex_subset describes.best_mem)
    refine List.forall_mem_singleton.mpr (Leads.append ⟨?_, ?_, ?_⟩ _)
    · rw [List.length_map, before.evaluations_eq]
    · rw [hbest]
      exact before.isNaN_simplex hfirst _ describes.best_mem
    · rw [hbest, before.evaluations_eq, ← List.map_take, List.take_length]
      refine List.forall_mem_map.mpr fun u hu => ?_
      obtain ⟨v, hv, hle⟩ := before.exists_le hfirst u hu
      rw [before.augmentedOf_sample hu]
      exact (describes.best_le v hv).trans hle

end Progress

/-- **No improvement is lost.**  If all augmented values of the first simplex are numbers, the value
of each row is a number and no larger than any number that an evaluation before it came to. -/
theorem Problem.Completes.leading {q : Problem σ} {maxIter : ℕ} {o : Options} {w : σ}
    {points : List Point} {r : SearchResult} {j : Journal σ}
    (h : q.Completes maxIter o w points r j) (hp : q.penalized o = .ok p)
    (hfirst : ∀ y ∈ j.samples.take (q.dimension + 1), (p.augmentedOf y).isNaN = false)
    {i : ℕ} (hi : i < maxIter) :
    ∃ f g evaluations, r.f[i]? = some f ∧ r.g.rows[i]? = some g ∧
      r.samplesAtIteration[i]? = some evaluations ∧ (f + p.penalty g).isNaN = false ∧
      ∀ y ∈ j.samples.take evaluations, (p.augmentedOf y).isNaN = false →
        f + p.penalty g ≤ p.augmentedOf y := by
  obtain ⟨hlength, -, vs, s, j₀, j₁, hprogress, -, hsamples, hshows⟩ := h.progress hp
  obtain ⟨row, hrow⟩ := hprogress.exists_row hi
  rw [hsamples, ← hlength] at hfirst
  have hleads := hprogress.leads (hprogress.isNaN_first hfirst) row (List.mem_of_getElem? hrow)
  refine ⟨row.current.objective, row.current.constraints, row.evaluations, ?_, ?_, ?_,
    hleads.isNaN_eq, fun y hy hnum => ?_⟩
  · rw [hshows.f, List.getElem?_map, hrow, Option.map_some]
  · rw [hshows.g, List.getElem?_map, hrow, Option.map_some]
  · rw [hshows.samplesAtIteration, List.getElem?_map, hrow, Option.map_some]
  · rw [hsamples] at hy
    exact (le_iff_rankKey _ _).mpr ⟨hnum, hleads.rankKey_le y hy⟩

theorem leading_square : ∃ r j, square.Completes 2 {} () segment.rows r j ∧
    ∃ f g evaluations, r.f[1]? = some f ∧ r.g.rows[1]? = some g ∧
      r.samplesAtIteration[1]? = some evaluations ∧ (f + squarePenalty.penalty g).isNaN = false ∧
      ∀ y ∈ j.samples.take evaluations, (squarePenalty.augmentedOf y).isNaN = false →
        f + squarePenalty.penalty g ≤ squarePenalty.augmentedOf y := by
  obtain ⟨r, j, hrun, hfirst⟩ := completes_square
    (P := fun _ j => ∀ y ∈ j.samples.take 2, (squarePenalty.augmentedOf y).isNaN = false)
    (by decide +kernel)
  exact ⟨r, j, hrun, hrun.leading penalized_square hfirst (by decide)⟩

end NelderMead
