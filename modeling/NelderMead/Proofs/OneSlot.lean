import NelderMead.Proofs.Immobile

/-!
# One iteration touches one slot

An iteration gives away the slot of the worst vertex, or none.  Which slot that is, which vertex is
best and which second worst, is read off the order of ranks; of vertices that rank alike the one
stored first comes first.  What the slot holds afterwards is settled by comparisons of numbers with
the vertices that the iteration evaluated.

* `Simplex.Before`, `Simplex.before_of_rank` — the order of ranks by slots.
* `Standing.RankedIn`, **`Simplex.rankedIn_of_standing`** — where in that order the vertices stand
  that an iteration reads off.
* `Evaluates`, `PenaltyFunction.NeverFails.exists_iterate` — what an iteration comes to on functions
  that never fail.
* `Standing.Fills`, **`Move.Chosen.fills`** — what the slot of the worst vertex holds afterwards.
* `Search.TouchesOneSlot`, **`PenaltyFunction.NeverFails.touchesOneSlot`** — what an iteration does
  there, and that it leaves all other slots alone.
-/

namespace NelderMead

variable {σ : Type} {n : ℕ}

/-! ## The order of ranks -/

namespace Simplex

variable {s : Simplex}

/-- **Slot `k` comes before slot `l`** in the order of ranks: its vertex ranks before the other, or
the two rank alike and it is the slot in front. -/
def Before (s : Simplex) (k l : ℕ) : Prop :=
  ∃ u v, s[k]? = some u ∧ s[l]? = some v ∧ RankedBefore (u.augmented, k) (v.augmented, l)

/-- Slots are listed in the order of ranks. -/
lemma before_of_rank {i k a b : ℕ} (hik : i < k) (ha : s.order[i]? = some a)
    (hb : s.order[k]? = some b) : s.Before a b := by
  obtain ⟨hi, rfl⟩ := List.getElem?_eq_some_iff.mp ha
  obtain ⟨hk, rfl⟩ := List.getElem?_eq_some_iff.mp hb
  obtain ⟨x, y, hx, hy, hbefore⟩ :=
    List.pairwise_iff_getElem.mp (rankOrder_stable (s.map Vertex.augmented)) i k hi hk hik
  rw [List.getElem?_map, Option.map_eq_some_iff] at hx hy
  obtain ⟨u, hu, rfl⟩ := hx
  obtain ⟨v, hv, rfl⟩ := hy
  exact ⟨u, v, hu, hv, hbefore⟩

end Simplex

/-- **Where the vertices of a standing stand**: the worst one is last in the order of ranks, the best
one first, and the second worst last but for the worst. -/
structure Standing.RankedIn (t : Standing) (s : Simplex) : Prop where
  worst : s[t.worstSlot]? = some t.worst ∧
    ∀ slot < s.length, slot ≠ t.worstSlot → s.Before slot t.worstSlot
  best : ∃ b, b ≠ t.worstSlot ∧ s[b]? = some t.best ∧
    ∀ slot < s.length, slot ≠ b → s.Before b slot
  secondWorst : ∃ l, l ≠ t.worstSlot ∧ s[l]? = some t.secondWorst ∧
    ∀ slot < s.length, slot ≠ t.worstSlot → slot ≠ l → s.Before slot l

/-- **A standing is read off the order of ranks.** -/
theorem Simplex.rankedIn_of_standing {s : Simplex} {t : Standing} (hn : 0 < n)
    (hlen : s.length = n + 1) (h : s.standing n = .ok t) : t.RankedIn s := by
  obtain ⟨b, l, hslots⟩ := slots_of_standing h
  have hb := hslots.rank_best
  have hl := hslots.rank_secondWorst
  have hw := hslots.rank_worst
  have hrank : ∀ slot < s.length, ∃ i ≤ n, s.order[i]? = some slot := fun slot hslot =>
    exists_rank hlen (List.getElem?_eq_getElem hslot)
  -- two slots are one if they have one rank
  have hne : ∀ {i k slot slot' : ℕ}, s.order[i]? = some slot → s.order[k]? = some slot' →
      slot ≠ slot' → i ≠ k := by
    rintro i k slot slot' hi hk hslots rfl
    exact hslots (Option.some.inj (hi.symm.trans hk))
  refine
    { worst := ⟨hslots.worst, fun slot hslot hother => ?_⟩
      best := ⟨b, hslots.ne_worstSlot hb hn, hslots.best, fun slot hslot hother => ?_⟩
      secondWorst := ⟨l, hslots.ne_worstSlot hl (by omega), hslots.secondWorst,
        fun slot hslot hother hother' => ?_⟩ }
  · obtain ⟨i, hi, hslot⟩ := hrank slot hslot
    have hin := hne hslot hw hother
    exact before_of_rank (by omega) hslot hw
  · obtain ⟨i, -, hslot⟩ := hrank slot hslot
    have hi := hne hslot hb hother
    exact before_of_rank (Nat.pos_of_ne_zero hi) hb hslot
  · obtain ⟨i, hi, hslot⟩ := hrank slot hslot
    have hin := hne hslot hw hother
    have hil := hne hslot hl hother'
    exact before_of_rank (by omega) hslot hl

/-! ## An iteration that succeeds -/

/-- **The vertices `vs` are what their points bring**, evaluated one after the other, which takes the
journal from `j` to `j'`. -/
def Evaluates (p : PenaltyFunction σ) (vs : List Vertex) (j j' : Journal σ) : Prop :=
  ((vs.map Vertex.point).mapM (Vertex.evaluate p)).exec j = (.ok vs, j')

lemma Evaluates.nil (p : PenaltyFunction σ) (j : Journal σ) : Evaluates p [] j j := rfl

/-- One more evaluation in front. -/
lemma Evaluates.cons {p : PenaltyFunction σ} {v : Vertex} {vs : List Vertex} {j j' j'' : Journal σ}
    (h : (Vertex.evaluate p v.point).exec j = (.ok v, j')) (h' : Evaluates p vs j' j'') :
    Evaluates p (v :: vs) j j'' := by
  rw [Evaluates, List.map_cons, List.mapM_cons]
  exact Run.exec_bind_eq_ok.mpr ⟨v, j', h, Run.exec_bind_eq_ok.mpr ⟨vs, j'', h', rfl⟩⟩

namespace PenaltyFunction.NeverFails

variable {p : PenaltyFunction σ} {t : Standing} {target : Vertex}

lemma exists_trial (hp : p.NeverFails n) (hcentroid : t.centroid.length = n)
    (htarget : target.point.length = n) (k : Float) (j : Journal σ) :
    ∃ v j', t.Reaches target k v ∧ (Vertex.evaluate p v.point).exec j = (.ok v, j') ∧
      (t.trial p target k).exec j = (.ok v, j') := by
  obtain ⟨x, hx⟩ := Point.exists_toward (hcentroid.trans htarget.symm) k
  obtain ⟨found, j', hv⟩ := hp.exists_evaluate ((Point.length_toward hx).trans hcentroid) j
  refine ⟨⟨x, found⟩, j', hx, hv, Run.exec_bind_eq_ok.mpr ⟨x, j, ?_, hv⟩⟩
  exact Run.exec_check_eq_ok.mpr ⟨hx, rfl⟩

/-- **A move is chosen** if no function fails. -/
theorem exists_choose (hp : p.NeverFails n) (hcentroid : t.centroid.length = n)
    (hworst : t.worst.point.length = n) (i : ℕ) (j : Journal σ) :
    ∃ m vs j', m.Chosen i t vs ∧ Evaluates p vs j j' ∧ (Move.choose p i t).exec j = (.ok m, j') := by
  obtain ⟨r, j₁, hreflected, hr, hexec⟩ := hp.exists_trial hcentroid hworst (-reflection) j
  have hpoint : r.point.length = n := (Point.length_toward hreflected).trans hcentroid
  by_cases hbetween : t.best.augmented ≤ r.augmented ∧ r.augmented < t.secondWorst.augmented
  · refine ⟨_, [r], j₁, .reflection hreflected hbetween.1 hbetween.2, .cons hr (.nil p j₁),
      Run.exec_bind_eq_ok.mpr ⟨r, j₁, hexec, ?_⟩⟩
    rw [if_pos hbetween]
    rfl
  by_cases hbest : r.augmented < t.best.augmented
  · obtain ⟨e, j₂, hexpanded, he, hexec'⟩ := hp.exists_trial hcentroid hpoint expansion j₁
    have hevaluates : Evaluates p [r, e] j j₂ := .cons hr (.cons he (.nil p j₂))
    have hchoose : (Move.choose p i t).exec j =
        if e.augmented < r.augmented then (.ok ⟨some e, 2, .expansionAccepted i e.augmented⟩, j₂)
        else (.ok ⟨some r, 2, .expansionRejected i r.augmented⟩, j₂) := by
      rw [Move.choose, Run.exec_bind, hexec]
      dsimp only
      rw [if_neg hbetween, if_pos hbest, Run.exec_bind, hexec']
      dsimp only
      split_ifs <;> rfl
    by_cases hbetter : e.augmented < r.augmented
    · exact ⟨_, [r, e], j₂, .expansion hreflected hexpanded hbest hbetter, hevaluates,
        hchoose.trans (if_pos hbetter)⟩
    · exact ⟨_, [r, e], j₂, .expansionRejected hreflected hexpanded hbest hbetter, hevaluates,
        hchoose.trans (if_neg hbetter)⟩
  · obtain ⟨c, j₂, hcontracted, hc, hexec'⟩ := hp.exists_trial hcentroid hworst contraction j₁
    have hevaluates : Evaluates p [r, c] j j₂ := .cons hr (.cons hc (.nil p j₂))
    have hchoose : (Move.choose p i t).exec j =
        if c.augmented < t.worst.augmented then
          (.ok ⟨some c, 2, .contractionAccepted i c.augmented⟩, j₂)
        else (.ok ⟨none, 2, .contractionRejected i⟩, j₂) := by
      rw [Move.choose, Run.exec_bind, hexec]
      dsimp only
      rw [if_neg hbetween, if_neg hbest, Run.exec_bind, hexec']
      dsimp only
      split_ifs <;> rfl
    by_cases hbetter : c.augmented < t.worst.augmented
    · exact ⟨_, [r, c], j₂, .contraction hreflected hcontracted hbetween hbest hbetter, hevaluates,
        hchoose.trans (if_pos hbetter)⟩
    · exact ⟨_, [r, c], j₂, .contractionRejected hreflected hcontracted hbetween hbest hbetter,
        hevaluates, hchoose.trans (if_neg hbetter)⟩

/-- **An iteration goes to the state of a move** if no function fails. -/
theorem exists_iterate (hp : p.NeverFails n) (hn : 0 < n) {s : Search}
    (hlen : s.simplex.length = n + 1) (hpoints : ∀ v ∈ s.simplex, v.point.length = n)
    (j : Journal σ) :
    ∃ t m vs j₁, s.simplex.standing n = .ok t ∧ m.Chosen s.trace.size t vs ∧
      Evaluates p vs j j₁ ∧ (Search.iterate p n s).exec j =
        (.ok (s.next t m), { j₁ with events := j₁.events.push m.event }) := by
  obtain ⟨t, ht⟩ := Simplex.exists_standing hlen hpoints
  have hd := Simplex.describes_of_standing hn hlen ht
  obtain ⟨m, vs, j₁, hchosen, hevaluates, hchoose⟩ :=
    hp.exists_choose hd.length_centroid (hpoints _ hd.worst_mem) s.trace.size j
  refine ⟨t, m, vs, j₁, ht, hchosen, hevaluates, Run.exec_bind_eq_ok.mpr ⟨t, j, ?_, ?_⟩⟩
  · exact Run.exec_check_eq_ok.mpr ⟨ht, rfl⟩
  · exact Run.exec_bind_eq_ok.mpr ⟨m, j₁, hchoose, rfl⟩

end PenaltyFunction.NeverFails

/-! ## The slot of the worst vertex -/

/-- Nothing is less than what it equals, or if it is not a number. -/
lemma not_lt_of_beq_or_isNaN {x y : Float} (h : (x == y) = true ∨ x.isNaN = true) : ¬x < y := by
  intro hlt
  obtain ⟨hx, hy, hticks⟩ := (Binary64.lt_iff x y).mp hlt
  rcases h with heq | hnan
  · exact hticks.ne ((Binary64.beq_iff x y).mp heq).2.2
  · exact Bool.false_ne_true (hx.symm.trans hnan)

/-- **The slot of the worst vertex is filled** with the vertex `v` by an iteration that evaluates the
vertices `vs`, the reflected one `r` first. -/
structure Standing.Fills (t : Standing) (r : Vertex) (vs : List Vertex) (v : Vertex) : Prop where
  reflected : t.Reaches t.worst (-reflection) r
  first : vs.head? = some r
  once_iff : vs.length = 1 ↔
    t.best.augmented ≤ r.augmented ∧ r.augmented < t.secondWorst.augmented
  once : vs.length = 1 → v = r
  /-- Of the expanded and the reflected vertex it is the one with the lower value, and the reflected
  one on a tie or if the value of the expanded one is not a number. -/
  better : r.augmented < t.best.augmented → ∃ e, vs = [r, e] ∧ t.Reaches r expansion e ∧
    (e.augmented < r.augmented → v = e) ∧ (¬e.augmented < r.augmented → v = r) ∧
    ((e.augmented == r.augmented) = true ∨ e.augmented.isNaN = true → v = r)
  /-- Whatever was found at the reflected vertex, it is the contracted one if that has a lower value
  than the worst, and otherwise the worst vertex stays. -/
  otherwise : vs.length ≠ 1 → ¬r.augmented < t.best.augmented →
    ∃ c, vs = [r, c] ∧ t.Reaches t.worst contraction c ∧
      (c.augmented < t.worst.augmented → v = c) ∧
      (¬c.augmented < t.worst.augmented → v = t.worst)

/-- **A move fills the slot** with its newcomer, or leaves the worst vertex there. -/
theorem Move.Chosen.fills {i : ℕ} {t : Standing} {m : Move} {vs : List Vertex}
    (h : m.Chosen i t vs) : ∃ r, t.Fills r vs (m.newcomer.getD t.worst) := by
  have hnotTwo : ∀ {u w : Vertex}, [u, w].length ≠ 1 := fun h => nomatch h
  have hnotBetween : ∀ {r : Vertex}, r.augmented < t.best.augmented →
      ¬(t.best.augmented ≤ r.augmented ∧ r.augmented < t.secondWorst.augmented) :=
    fun hbest hbetween => ((le_iff_not_lt _ _).mp hbetween.1).2.2 hbest
  cases h with
  | @reflection r reflected above below =>
    exact ⟨r,
      { reflected := reflected
        first := rfl
        once_iff := iff_of_true rfl ⟨above, below⟩
        once := fun _ => rfl
        better := fun hbest => absurd ⟨above, below⟩ (hnotBetween hbest)
        otherwise := fun htwo _ => absurd rfl htwo }⟩
  | @expansion r e reflected expanded best better =>
    exact ⟨r,
      { reflected := reflected
        first := rfl
        once_iff := iff_of_false hnotTwo (hnotBetween best)
        once := fun hone => absurd hone hnotTwo
        better := fun _ => ⟨e, rfl, expanded, fun _ => rfl, fun hnot => absurd better hnot,
          fun hnot => absurd better (not_lt_of_beq_or_isNaN hnot)⟩
        otherwise := fun _ hnotBest => absurd best hnotBest }⟩
  | @expansionRejected r e reflected expanded best notBetter =>
    exact ⟨r,
      { reflected := reflected
        first := rfl
        once_iff := iff_of_false hnotTwo (hnotBetween best)
        once := fun hone => absurd hone hnotTwo
        better := fun _ => ⟨e, rfl, expanded, fun hbetter => absurd hbetter notBetter,
          fun _ => rfl, fun _ => rfl⟩
        otherwise := fun _ hnotBest => absurd best hnotBest }⟩
  | @contraction r c reflected contracted outside notBest better =>
    exact ⟨r,
      { reflected := reflected
        first := rfl
        once_iff := iff_of_false hnotTwo outside
        once := fun hone => absurd hone hnotTwo
        better := fun hbest => absurd hbest notBest
        otherwise := fun _ _ => ⟨c, rfl, contracted, fun _ => rfl,
          fun hnot => absurd better hnot⟩ }⟩
  | @contractionRejected r c reflected contracted outside notBest notBetter =>
    exact ⟨r,
      { reflected := reflected
        first := rfl
        once_iff := iff_of_false hnotTwo outside
        once := fun hone => absurd hone hnotTwo
        better := fun hbest => absurd hbest notBest
        otherwise := fun _ _ => ⟨c, rfl, contracted, fun hbetter => absurd hbetter notBetter,
          fun _ => rfl⟩ }⟩

/-! ## One iteration -/

/-- **One iteration touches one slot.**  From the state `s` with the journal `j` it goes to `s'` with
`j'`.  It reads off the standing `t` and evaluates the vertices `vs`. -/
structure Search.TouchesOneSlot (p : PenaltyFunction σ) (n : ℕ) (s : Search) (j : Journal σ)
    (t : Standing) (vs : List Vertex) (s' : Search) (j' : Journal σ) : Prop where
  standing : s.simplex.standing n = .ok t
  ranked : t.RankedIn s.simplex
  length_simplex : s'.simplex.length = s.simplex.length
  /-- All slots but that of the worst vertex stay as they are, points and values. -/
  others : ∀ slot, slot ≠ t.worstSlot → s'.simplex[slot]? = s.simplex[slot]?
  /-- The best vertex is recorded and stays in its slot. -/
  recorded : s'.trace = s.trace.record t.best.sample s.evaluations
  best : ∃ slot, slot ≠ t.worstSlot ∧ s.simplex[slot]? = some t.best ∧
    s'.simplex[slot]? = some t.best
  evaluated : ∃ j₁ e, Evaluates p vs j j₁ ∧ j' = { j₁ with events := j₁.events.push e }
  evaluations_eq : s'.evaluations = s.evaluations + vs.length
  filled : ∃ r v, s'.simplex[t.worstSlot]? = some v ∧ t.Fills r vs v

/-- **An iteration on functions that never fail** touches one slot, whatever the values of the simplex
are. -/
theorem PenaltyFunction.NeverFails.touchesOneSlot {p : PenaltyFunction σ} (hp : p.NeverFails n)
    (hn : 0 < n) {s : Search} (hlen : s.simplex.length = n + 1)
    (hpoints : ∀ v ∈ s.simplex, v.point.length = n) (j : Journal σ) :
    ∃ t vs s' j', (Search.iterate p n s).exec j = (.ok s', j') ∧
      s.TouchesOneSlot p n j t vs s' j' := by
  obtain ⟨t, m, vs, j₁, ht, hchosen, hevaluates, hexec⟩ := hp.exists_iterate hn hlen hpoints j
  have hranked := Simplex.rankedIn_of_standing hn hlen ht
  have hothers : ∀ slot, slot ≠ t.worstSlot → (s.next t m).simplex[slot]? = s.simplex[slot]? :=
    fun slot hslot => Simplex.getElem?_settle_of_ne hslot
  obtain ⟨b, hb, hbest, -⟩ := hranked.best
  obtain ⟨r, hfills⟩ := hchosen.fills
  exact ⟨t, vs, s.next t m, _, hexec,
    { standing := ht
      ranked := hranked
      length_simplex := Simplex.length_settle ..
      others := hothers
      recorded := rfl
      best := ⟨b, hb, hbest, (hothers b hb).trans hbest⟩
      evaluated := ⟨j₁, m.event, hevaluates, rfl⟩
      evaluations_eq := congrArg (s.evaluations + ·) hchosen.spent_eq
      filled := ⟨r, _, Simplex.getElem?_settle_self hranked.worst.1, hfills⟩ }⟩

/-! ## A segment whose worst vertex has no number -/

/-- A segment between a vertex without a number and one with a number. -/
def halfKnown : Search where
  simplex := [⟨[3.0], ⟨0.0 / 0.0, 0.0 / 0.0, []⟩⟩, ⟨[2.0], ⟨2.0, 2.0, []⟩⟩]
  evaluations := 2
  trace := {}

theorem touchesOneSlot_halfKnown : ∃ t vs s' j',
    (Search.iterate accepts_latecomer.penalty 1 halfKnown).exec { world := 2 } = (.ok s', j') ∧
      halfKnown.TouchesOneSlot accepts_latecomer.penalty 1 { world := 2 } t vs s' j' :=
  (neverFails_latecomer.penalty accepts_latecomer).touchesOneSlot one_pos rfl (by decide +kernel)
    { world := 2 }

end NelderMead
