import NelderMead.Proofs.StorageOrder

/-!
# Whether a contracted point is taken

Vertices are ranked with what is not a number behind every number, but a contracted point is taken
by a comparison of numbers.  The two agree as long as the worst vertex has a number.  Where it has
none, nothing is less than its value, so it stays, and a contracted point may be thrown away that
ranks before every vertex of the simplex.

* `Event.isContraction` — that an iteration tried a contraction.
* `Standing.Prefers` — that a contracted vertex is good enough.
* `Search.Contracts` — what such an iteration evaluates, and when it takes the contracted vertex.
* **`Search.Visits.acceptance`** — every iteration of a search that tries a contraction is one.
* `pit` — a problem that is best at a point that a search throws away.
-/

namespace NelderMead

variable {σ : Type} {p : PenaltyFunction σ} {n k : ℕ} {points : List Point} {maxIter : ℕ}
  {j₀ j j' : Journal σ}

/-- Whether an iteration tried a contraction. -/
def Event.isContraction : Event → Bool
  | contractionAccepted .. => true
  | contractionRejected .. => true
  | _ => false

/-- **The vertex `c` is preferred** to the worst one, which has a number and ranks behind it. -/
def Standing.Prefers (t : Standing) (c : Vertex) : Prop :=
  t.worst.augmented.isNaN = false ∧ rankCmp c.augmented t.worst.augmented = .lt

/-- The comparison that decides about a contracted point is that of ranks, but for worst vertices
without a number. -/
lemma Standing.prefers_iff (t : Standing) (c : Vertex) :
    t.Prefers c ↔ c.augmented < t.worst.augmented := by
  rw [Prefers, rankCmp_eq_lt_iff, lt_iff_rankKey]

/-- **An iteration that tries a contraction**, from the state `s` with the journal `j` to the state
`s'` with the journal `j'`.  The worst vertex is reflected to `r` and contracted to `c`. -/
structure Search.Contracts (p : PenaltyFunction σ) (n : ℕ) (s : Search) (j : Journal σ)
    (t : Standing) (r c : Vertex) (s' : Search) (j' : Journal σ) : Prop where
  standing : s.simplex.standing n = .ok t
  reflected : t.Reaches t.worst (-reflection) r
  contracted : t.Reaches t.worst contraction c
  consistent : r.Consistent p ∧ c.Consistent p
  calls : j'.calls.toList = j.calls.toList ++ (r.sample.calls ++ c.sample.calls)
  /-- The contracted vertex takes the slot of the worst one. -/
  replaced : t.Prefers c → s'.simplex = s.simplex.set t.worstSlot c
  /-- Otherwise all vertices stay. -/
  kept : ¬t.Prefers c → s'.simplex = s.simplex
  replaced_iff : s'.simplex ≠ s.simplex ↔ t.Prefers c
  /-- A worst vertex without a number stays, whatever was found at the contracted point. -/
  unknown_kept : t.worst.augmented.isNaN = true → s'.simplex = s.simplex
  /-- A contracted vertex that ranks before all others is taken if the worst one has a number. -/
  best_taken : t.worst.augmented.isNaN = false →
    (∀ v ∈ s.simplex, rankCmp c.augmented v.augmented = .lt) → c ∈ s'.simplex

/-- What a contraction does to the simplex is settled by what it prefers. -/
lemma Search.Contracts.of_next {s : Search} {t : Standing} {r c : Vertex} {m : Move}
    (hstanding : s.simplex.standing n = .ok t) (hd : t.Describes n s.simplex)
    (hreflected : t.Reaches t.worst (-reflection) r)
    (hcontracted : t.Reaches t.worst contraction c) (hevaluated : Evaluated p [r, c] j j')
    (hreplaced : t.Prefers c → m.newcomer = some c) (hkept : ¬t.Prefers c → m.newcomer = none)
    (e : Event) :
    s.Contracts p n j t r c (s.next t m) { j' with events := j'.events.push e } := by
  have hset : t.Prefers c → (s.next t m).simplex = s.simplex.set t.worstSlot c := by
    intro h
    rw [next, hreplaced h]
    rfl
  have hsame : ¬t.Prefers c → (s.next t m).simplex = s.simplex := by
    intro h
    rw [next, hkept h]
    rfl
  have hslot : t.worstSlot < s.simplex.length := (List.getElem?_eq_some_iff.mp hd.worst).1
  have hne : t.Prefers c → (s.next t m).simplex ≠ s.simplex := by
    intro h heq
    have hget := congrArg (·[t.worstSlot]?) ((hset h).symm.trans heq)
    rw [List.getElem?_set_self hslot, hd.worst] at hget
    obtain rfl := Option.some.inj hget
    exact lt_irrefl _ ((rankCmp_eq_lt_iff _ _).mp h.2)
  exact
    { standing := hstanding
      reflected := hreflected
      contracted := hcontracted
      consistent := ⟨hevaluated.consistent r List.mem_cons_self,
        hevaluated.consistent c (List.mem_cons_of_mem r List.mem_cons_self)⟩
      calls := by simpa using hevaluated.calls
      replaced := hset
      kept := hsame
      replaced_iff := ⟨fun h => by_contra fun hnot => h (hsame hnot), hne⟩
      unknown_kept := fun hnan => hsame fun h => Bool.false_ne_true (h.1.symm.trans hnan)
      best_taken := by
        intro hnum hfirst
        rw [hset ⟨hnum, hfirst _ hd.worst_mem⟩]
        exact List.mem_set hslot c }

/-- **Every iteration that tries a contraction** replaces the worst vertex if that has a number and
the contracted one ranks before it, and leaves the simplex as it is otherwise. -/
theorem Search.Visits.acceptance {s s' : Search} (hn : 0 < n) (hpoints : points.length = n + 1)
    (hs : Visits p n points maxIter j₀ k s j) (h : (iterate p n s).exec j = (.ok s', j')) :
    ∃ e, j'.events = j.events.push e ∧
      (e.isContraction = true → ∃ t r c, s.Contracts p n j t r c s' j') := by
  obtain ⟨vs, hprogress⟩ := Progress.of_visits hn hpoints hs
  obtain ⟨t, m, ws, j₁, hdecides, hchosen, hevaluated, rfl, rfl⟩ := next_of_exec h
  have hd := Simplex.describes_of_standing hn (hprogress.length_simplex.trans hpoints) hdecides.1
  refine ⟨m.event, congrArg (·.push m.event) hevaluated.events, fun hevent => ?_⟩
  cases hchosen with
  | @contraction r c reflected contracted outside notBest better =>
    refine ⟨t, r, c, .of_next hdecides.1 hd reflected contracted hevaluated (fun _ => rfl) ?_ _⟩
    exact fun hnot => absurd ((t.prefers_iff c).mpr better) hnot
  | @contractionRejected r c reflected contracted outside notBest notBetter =>
    refine ⟨t, r, c, .of_next hdecides.1 hd reflected contracted hevaluated ?_ (fun _ => rfl) _⟩
    exact fun htaken => absurd ((t.prefers_iff c).mp htaken) notBetter
  | _ => cases hevent

/-! ## Searches near a pit -/

/-- The distance from three, which is not a number at five. -/
def pitValue (x : Point) : Float :=
  if x.getD 0 0.0 == 5.0 then 0.0 / 0.0 else (x.getD 0 0.0 - 3.0).abs

/-- The distance from three, without constraints. -/
def pit : PenaltyFunction Unit where
  objective := .ofPoint fun x => .ok (pitValue x)
  constraints := []
  shape := .l2
  mu := 100.0
  isFiniteNonneg_mu := squarePenalty.isFiniteNonneg_mu

/-- The state before the first iteration, the iteration, and what is checked of it. -/
lemma exists_iterate_pit (points : List Point)
    {P : Search → Journal Unit → Search → Journal Unit → Prop}
    [∀ s j s' j', Decidable (P s j s' j')]
    (h : (match (Search.first pit 1 points 1).execIn () with
      | (.ok s, j) => match (Search.iterate pit 1 s).exec j with
        | (.ok s', j') => decide (P s j s' j')
        | (.error _, _) => false
      | (.error _, _) => false) = true) :
    ∃ s j s' j', Search.Visits pit 1 points 1 { world := () } 0 s j ∧
      (Search.iterate pit 1 s).exec j = (.ok s', j') ∧ P s j s' j' := by
  rcases hfirst : (Search.first pit 1 points 1).execIn () with ⟨e | s, j⟩
  · rw [hfirst] at h
    cases h
  rcases hnext : (Search.iterate pit 1 s).exec j with ⟨e | s', j'⟩
  · simp only [hfirst, hnext] at h
    cases h
  · simp only [hfirst, hnext] at h
    have hvisits : Search.Visits pit 1 points 1 { world := () } 0 s j :=
      ⟨Nat.zero_le 1, Run.exec_bind_eq_ok.mpr ⟨s, j, hfirst, rfl⟩⟩
    exact ⟨s, j, s', j', hvisits, hnext, of_decide_eq_true h⟩

/-- From one and four the contracted point is taken. -/
theorem acceptance_pit : ∃ s j s' j' t r c,
    Search.Visits pit 1 [[1.0], [4.0]] 1 { world := () } 0 s j ∧
      (Search.iterate pit 1 s).exec j = (.ok s', j') ∧ s.Contracts pit 1 j t r c s' j' ∧
      s'.simplex ≠ s.simplex := by
  obtain ⟨s, j, s', j', hvisits, hnext, hevents, hchanged⟩ := exists_iterate_pit [[1.0], [4.0]]
    (P := fun s j s' j' => j'.events = j.events.push (.contractionAccepted 0 0.5) ∧
      s'.simplex ≠ s.simplex) (by decide +kernel)
  have hlength : [[1.0], [4.0]].length = 1 + 1 := by simp
  obtain ⟨e, he, hcontracts⟩ := hvisits.acceptance one_pos hlength hnext
  obtain rfl := Array.push_inj_right.mp (he.symm.trans hevents)
  obtain ⟨t, r, c, h⟩ := hcontracts rfl
  exact ⟨s, j, s', j', t, r, c, hvisits, hnext, h, hchanged⟩

/-- The standing of one and five. -/
def acrossPit : Standing where
  best := ⟨[1.0], ⟨2.0, 2.0, []⟩⟩
  secondWorst := ⟨[1.0], ⟨2.0, 2.0, []⟩⟩
  worst := ⟨[5.0], ⟨0.0 / 0.0, 0.0 / 0.0, []⟩⟩
  worstSlot := 1
  centroid := [1.0]

/-- **A search may throw the best point away**: from one and five the worst vertex is not a number,
so the contracted point is not taken, though it ranks before both vertices. -/
theorem thrownAway_pit : ∃ s j s' j' t y,
    Search.Visits pit 1 [[1.0], [5.0]] 1 { world := () } 0 s j ∧
      (Search.iterate pit 1 s).exec j = (.ok s', j') ∧
      j'.events = j.events.push (.contractionRejected 0) ∧ s.simplex.standing 1 = .ok t ∧
      Point.toward t.centroid t.worst.point contraction = .ok y.point ∧
      j'.samples.getLast? = some y ∧
      (∀ v ∈ s.simplex, rankCmp (pit.augmentedOf y) v.augmented = .lt) ∧
      s'.simplex = s.simplex := by
  obtain ⟨s, j, s', j', hvisits, hnext, hchecked⟩ := exists_iterate_pit [[1.0], [5.0]]
    (P := fun s j s' j' => j'.events = j.events.push (.contractionRejected 0) ∧
      s.simplex.standing 1 = .ok acrossPit ∧
      Point.toward [1.0] [5.0] contraction = .ok [3.0] ∧
      j'.samples.getLast? = some ⟨[3.0], 0.0, []⟩ ∧
      (∀ v ∈ s.simplex, rankCmp (pit.augmentedOf ⟨[3.0], 0.0, []⟩) v.augmented = .lt) ∧
      s'.simplex = s.simplex) (by decide +kernel)
  exact ⟨s, j, s', j', acrossPit, ⟨[3.0], 0.0, []⟩, hvisits, hnext, hchecked⟩

end NelderMead
