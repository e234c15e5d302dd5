import NelderMead.Proofs.Evaluation
import NelderMead.Proofs.Rows
import NelderMead.Proofs.Standing

/-!
# One iteration

Everything that an iteration can do, said once.

* `Move.Chosen` — the five ways in which a move is chosen, each with the vertices that were
  evaluated for it; **`chosen_of_exec`** says that there are no others.
* **`Move.Chosen.key_lt`** — the newcomer ranks strictly before the worst vertex.
* **`Move.Chosen.covered`** — what was evaluated and not taken is no better than what is kept.
* `Search.next` — the state after an iteration; `next_of_exec` takes an iteration apart.
* `Simplex.NoWorse` — that no slot is worse in one simplex than in another;
  **`Search.noWorse_next`** says so of an iteration.
-/

namespace NelderMead

variable {σ : Type} {p : PenaltyFunction σ} {j j' : Journal σ}

/-! ## The choice of a move -/

/-- The vertex `v` lies `k` times the way from the centroid to `target`. -/
def Standing.Reaches (t : Standing) (target : Vertex) (k : Float) (v : Vertex) : Prop :=
  Point.toward t.centroid target.point k = .ok v.point

/-- **How the move of iteration `i` is chosen**, with the vertices that are evaluated for it. -/
inductive Move.Chosen (i : ℕ) (t : Standing) : Move → List Vertex → Prop
  | reflection {r : Vertex} (reflected : t.Reaches t.worst (-reflection) r)
      (above : t.best.augmented ≤ r.augmented)
      (below : r.augmented < t.secondWorst.augmented) :
      Chosen i t ⟨some r, 1, .reflectionAccepted i r.augmented⟩ [r]
  | expansion {r e : Vertex} (reflected : t.Reaches t.worst (-reflection) r)
      (expanded : t.Reaches r expansion e) (best : r.augmented < t.best.augmented)
      (better : e.augmented < r.augmented) :
      Chosen i t ⟨some e, 2, .expansionAccepted i e.augmented⟩ [r, e]
  | expansionRejected {r e : Vertex} (reflected : t.Reaches t.worst (-reflection) r)
      (expanded : t.Reaches r expansion e) (best : r.augmented < t.best.augmented)
      (notBetter : ¬e.augmented < r.augmented) :
      Chosen i t ⟨some r, 2, .expansionRejected i r.augmented⟩ [r, e]
  | contraction {r c : Vertex} (reflected : t.Reaches t.worst (-reflection) r)
      (contracted : t.Reaches t.worst contraction c)
      (outside : ¬(t.best.augmented ≤ r.augmented ∧ r.augmented < t.secondWorst.augmented))
      (notBest : ¬r.augmented < t.best.augmented) (better : c.augmented < t.worst.augmented) :
      Chosen i t ⟨some c, 2, .contractionAccepted i c.augmented⟩ [r, c]
  | contractionRejected {r c : Vertex} (reflected : t.Reaches t.worst (-reflection) r)
      (contracted : t.Reaches t.worst contraction c)
      (outside : ¬(t.best.augmented ≤ r.augmented ∧ r.augmented < t.secondWorst.augmented))
      (notBest : ¬r.augmented < t.best.augmented) (notBetter : ¬c.augmented < t.worst.augmented) :
      Chosen i t ⟨none, 2, .contractionRejected i⟩ [r, c]

lemma evaluated_of_trial {t : Standing} {target v : Vertex} {k : Float}
    (h : (t.trial p target k).exec j = (.ok v, j')) :
    t.Reaches target k v ∧ Evaluated p [v] j j' := by
  obtain ⟨x, j₁, hcheck, hv⟩ := Run.exec_bind_eq_ok.mp h
  obtain ⟨hx, rfl⟩ := Run.exec_check_eq_ok.mp hcheck
  obtain ⟨rfl, heval⟩ := evaluated_of_exec hv
  exact ⟨hx, heval⟩

/-- **A move is chosen in one of five ways.** -/
theorem chosen_of_exec {i : ℕ} {t : Standing} {m : Move}
    (h : (Move.choose p i t).exec j = (.ok m, j')) :
    ∃ vs, m.Chosen i t vs ∧ Evaluated p vs j j' := by
  obtain ⟨r, j₁, hr, h⟩ := Run.exec_bind_eq_ok.mp h
  obtain ⟨hreflected, hevalr⟩ := evaluated_of_trial hr
  split_ifs at h with hbetween hbest
  · obtain ⟨rfl, rfl⟩ := Run.exec_pure_eq_ok.mp h
    exact ⟨[r], .reflection hreflected hbetween.1 hbetween.2, hevalr⟩
  · obtain ⟨e, j₂, he, h⟩ := Run.exec_bind_eq_ok.mp h
    obtain ⟨hexpanded, hevale⟩ := evaluated_of_trial he
    refine ⟨[r, e], ?_⟩
    split_ifs at h with hbetter
    · obtain ⟨rfl, rfl⟩ := Run.exec_pure_eq_ok.mp h
      exact ⟨.expansion hreflected hexpanded hbest hbetter, hevalr.append hevale⟩
    · obtain ⟨rfl, rfl⟩ := Run.exec_pure_eq_ok.mp h
      exact ⟨.expansionRejected hreflected hexpanded hbest hbetter, hevalr.append hevale⟩
  · obtain ⟨c, j₂, hc, h⟩ := Run.exec_bind_eq_ok.mp h
    obtain ⟨hcontracted, hevalc⟩ := evaluated_of_trial hc
    refine ⟨[r, c], ?_⟩
    split_ifs at h with hbetter
    · obtain ⟨rfl, rfl⟩ := Run.exec_pure_eq_ok.mp h
      exact ⟨.contraction hreflected hcontracted hbetween hbest hbetter, hevalr.append hevalc⟩
    · obtain ⟨rfl, rfl⟩ := Run.exec_pure_eq_ok.mp h
      exact ⟨.contractionRejected hreflected hcontracted hbetween hbest hbetter,
        hevalr.append hevalc⟩

namespace Move.Chosen

variable {i n : ℕ} {t : Standing} {m : Move} {vs : List Vertex}

lemma spent_eq (h : m.Chosen i t vs) : m.spent = vs.length := by
  cases h <;> rfl

lemma spent_cases (h : m.Chosen i t vs) : m.spent = 1 ∨ m.spent = 2 := by
  cases h with
  | reflection => exact Or.inl rfl
  | _ => exact Or.inr rfl

/-- With the best vertex second worst there is no room for a reflected point between them. -/
lemma spent_eq_two (h : m.Chosen i t vs) (hline : t.secondWorst = t.best) : m.spent = 2 := by
  cases h with
  | reflection reflected above below =>
    rw [hline] at below
    have hle := ((le_iff_rankKey _ _).mp above).2
    have hlt := ((lt_iff_rankKey _ _).mp below).2
    omega
  | _ => rfl

lemma newcomer_mem (h : m.Chosen i t vs) {v : Vertex} (hv : v ∈ m.newcomer) : v ∈ vs := by
  cases h with
  | contractionRejected => cases hv
  | expansionRejected =>
    obtain rfl := Option.some.inj hv
    exact List.mem_cons_self
  | _ =>
    obtain rfl := Option.some.inj hv
    simp

lemma length_point (h : m.Chosen i t vs) {v : Vertex} (hv : v ∈ vs) :
    v.point.length = t.centroid.length := by
  have hreach : ∀ {target u : Vertex} {k : Float}, t.Reaches target k u →
      u.point.length = t.centroid.length := fun hu => Point.length_toward hu
  cases h with
  | reflection reflected =>
    obtain rfl := List.mem_singleton.mp hv
    exact hreach reflected
  | expansion reflected other | expansionRejected reflected other
  | contraction reflected other | contractionRejected reflected other =>
    rcases List.mem_pair.mp hv with rfl | rfl
    · exact hreach reflected
    · exact hreach other

/-- What is taken is a number. -/
lemma newcomer_isNaN (h : m.Chosen i t vs) {v : Vertex} (hv : v ∈ m.newcomer) :
    v.augmented.isNaN = false := by
  have hleft : ∀ {x y : Float}, x < y → x.isNaN = false := fun hxy =>
    ((Binary64.lt_iff _ _).mp hxy).1
  cases h with
  | reflection reflected above below =>
    obtain rfl := Option.some.inj hv
    exact hleft below
  | expansion reflected expanded best better =>
    obtain rfl := Option.some.inj hv
    exact hleft better
  | expansionRejected reflected expanded best notBetter =>
    obtain rfl := Option.some.inj hv
    exact hleft best
  | contraction reflected contracted outside notBest better =>
    obtain rfl := Option.some.inj hv
    exact hleft better
  | contractionRejected => cases hv

variable {s : Simplex}

/-- **The newcomer ranks strictly before the worst vertex.**  The comparisons that accept it are
strict, so they hold of keys whatever the vertices of the simplex are. -/
theorem key_lt (h : m.Chosen i t vs) (hd : t.Describes n s) {v : Vertex} (hv : v ∈ m.newcomer) :
    v.key < t.worst.key := by
  have hlt : ∀ {u w : Vertex}, u.augmented < w.augmented → u.key < w.key := fun huw =>
    ((lt_iff_rankKey _ _).mp huw).2
  cases h with
  | reflection reflected above below =>
    obtain rfl := Option.some.inj hv
    exact (hlt below).trans_le hd.secondWorst_le_worst
  | expansion reflected expanded best better =>
    obtain rfl := Option.some.inj hv
    exact (hlt better).trans ((hlt best).trans_le hd.best_le_worst)
  | expansionRejected reflected expanded best notBetter =>
    obtain rfl := Option.some.inj hv
    exact (hlt best).trans_le hd.best_le_worst
  | contraction reflected contracted outside notBest better =>
    obtain rfl := Option.some.inj hv
    exact hlt better
  | contractionRejected => cases hv

/-- **What was evaluated** is no better than the newcomer or the best vertex, as long as all
vertices of the simplex are numbers. -/
theorem covered (h : m.Chosen i t vs) (hd : t.Describes n s)
    (hworst : t.worst.augmented.isNaN = false) {u : Vertex} (hu : u ∈ vs) :
    (∃ v ∈ m.newcomer, v.key ≤ u.key) ∨ t.best.key ≤ u.key := by
  have hbest : t.best.augmented.isNaN = false :=
    (isNaN_eq_false_iff _).mpr (hd.best_le_worst.trans ((isNaN_eq_false_iff _).mp hworst))
  cases h with
  | reflection =>
    obtain rfl := List.mem_singleton.mp hu
    exact Or.inl ⟨u, rfl, le_rfl⟩
  | @expansion r e _ _ _ better =>
    have hlt : e.key < r.key := ((lt_iff_rankKey _ _).mp better).2
    rcases List.mem_pair.mp hu with rfl | rfl
    · exact Or.inl ⟨e, rfl, hlt.le⟩
    · exact Or.inl ⟨u, rfl, le_rfl⟩
  | @expansionRejected r e _ _ best notBetter =>
    have hr : r.augmented.isNaN = false := ((Binary64.lt_iff _ _).mp best).1
    rcases List.mem_pair.mp hu with rfl | rfl
    · exact Or.inl ⟨u, rfl, le_rfl⟩
    · exact Or.inl ⟨r, rfl, rankKey_le_of_not_lt hr notBetter⟩
  | @contraction r c _ _ _ notBest =>
    rcases List.mem_pair.mp hu with rfl | rfl
    · exact Or.inr (rankKey_le_of_not_lt hbest notBest)
    · exact Or.inl ⟨u, rfl, le_rfl⟩
  | @contractionRejected r c _ _ _ notBest notBetter =>
    rcases List.mem_pair.mp hu with rfl | rfl
    · exact Or.inr (rankKey_le_of_not_lt hbest notBest)
    · exact Or.inr (hd.best_le_worst.trans (rankKey_le_of_not_lt hworst notBetter))

end Move.Chosen

/-! ## Taking a slot -/

namespace Simplex

variable {s : Simplex} {slot : ℕ} {u : Vertex} {new : Option Vertex}

lemma mem_settle {v : Vertex} (h : v ∈ s.settle slot new) : v ∈ s ∨ v ∈ new := by
  cases new with
  | none => exact Or.inl h
  | some w => exact (List.mem_or_eq_of_mem_set h).imp_right fun heq => congrArg some heq.symm

lemma newcomer_mem_settle {v : Vertex} (hslot : s[slot]? = some u) (hv : v ∈ new) :
    v ∈ s.settle slot new := by
  obtain rfl : new = some v := hv
  exact List.mem_set (List.getElem?_eq_some_iff.mp hslot).1 v

/-- Only the slot that is given away changes. -/
lemma getElem?_settle_of_ne {k : ℕ} (h : k ≠ slot) : (s.settle slot new)[k]? = s[k]? := by
  cases new with
  | none => rfl
  | some w => exact List.getElem?_set_ne h.symm

/-- That slot holds the newcomer, or what it held if there is none. -/
lemma getElem?_settle_self (hslot : s[slot]? = some u) :
    (s.settle slot new)[slot]? = some (new.getD u) := by
  cases new with
  | none => exact hslot
  | some w => exact List.getElem?_set_self (List.getElem?_eq_some_iff.mp hslot).1

/-- **No slot is worse** in `s'` than it is in `s`. -/
def NoWorse (s' s : Simplex) : Prop := List.Forall₂ (fun v w => v.key ≤ w.key) s' s

lemma NoWorse.refl (s : Simplex) : NoWorse s s := List.forall₂_same.mpr fun _ _ => le_rfl

lemma NoWorse.trans {s₁ s₂ s₃ : Simplex} (h : NoWorse s₁ s₂) (h' : NoWorse s₂ s₃) :
    NoWorse s₁ s₃ := by
  refine List.forall₂_iff_get.mpr ⟨h.length_eq.trans h'.length_eq, fun i h₁ h₃ => ?_⟩
  have h₂ : i < s₂.length := h.length_eq ▸ h₁
  exact (h.get h₁ h₂).trans (h'.get h₂ h₃)

lemma NoWorse.values {s' : Simplex} (h : NoWorse s' s) :
    List.Forall₂ (fun x y => rankCmp x y ≠ .gt) s'.values s.values := by
  rw [Simplex.values, Simplex.values, List.forall₂_map_left_iff, List.forall₂_map_right_iff]
  exact h.imp fun v w hle => (rankCmp_ne_gt_iff _ _).mpr hle

/-- Every vertex is matched by one that is as good. -/
lemma NoWorse.exists_le {s' : Simplex} (h : NoWorse s' s) {w : Vertex} (hw : w ∈ s) :
    ∃ v ∈ s', v.key ≤ w.key := by
  induction h with
  | nil => cases hw
  | @cons v w' s' s hle _ ih =>
    rcases List.mem_cons.mp hw with rfl | hw
    · exact ⟨v, List.mem_cons_self, hle⟩
    · obtain ⟨v', hv', hle'⟩ := ih hw
      exact ⟨v', List.mem_cons_of_mem _ hv', hle'⟩

/-- A newcomer no worse than the vertex whose slot it takes makes no slot worse. -/
lemma noWorse_settle (hslot : s[slot]? = some u) (hnew : ∀ v ∈ new, v.key ≤ u.key) :
    NoWorse (s.settle slot new) s := by
  cases new with
  | none => exact NoWorse.refl s
  | some v =>
    rw [settle]
    induction s generalizing slot with
    | nil => exact List.Forall₂.nil
    | cons w s ih =>
      cases slot with
      | zero =>
        obtain rfl : w = u := Option.some.inj hslot
        exact List.Forall₂.cons (hnew v rfl) (NoWorse.refl s)
      | succ slot => exact List.Forall₂.cons le_rfl (ih hslot)

end Simplex

/-! ## The state after an iteration -/

namespace Search

/-- The state that the move `m` leads to. -/
def next (s : Search) (t : Standing) (m : Move) : Search where
  simplex := s.simplex.settle t.worstSlot m.newcomer
  evaluations := s.evaluations + m.spent
  trace := s.trace.record t.best.sample s.evaluations

/-- A move records one row, which shows the best vertex. -/
lemma rows_next (s : Search) (t : Standing) (m : Move) :
    (s.next t m).trace.rows.toList = s.trace.rows.toList ++
      [⟨t.best.sample, Trace.better s.trace.rows.back? t.best.sample, s.evaluations⟩] :=
  s.trace.toList_rows_record t.best.sample s.evaluations

/-- In state `s` with the journal `j`, an iteration in dimension `n` chooses the move `m`. -/
def Decides (p : PenaltyFunction σ) (n : ℕ) (s : Search) (j : Journal σ) (t : Standing)
    (m : Move) : Prop :=
  s.simplex.standing n = .ok t ∧
    ∃ j', (Move.choose p s.trace.size t).exec j = (.ok m, j')

/-- **An iteration that succeeds** goes to the state of its move, and tells the event of it. -/
theorem next_of_exec {n : ℕ} {s s' : Search} (h : (iterate p n s).exec j = (.ok s', j')) :
    ∃ t m vs j₁, Decides p n s j t m ∧ m.Chosen s.trace.size t vs ∧ Evaluated p vs j j₁ ∧
      j' = { j₁ with events := j₁.events.push m.event } ∧ s' = s.next t m := by
  obtain ⟨t, j₁, hcheck, h⟩ := Run.exec_bind_eq_ok.mp h
  obtain ⟨ht, rfl⟩ := Run.exec_check_eq_ok.mp hcheck
  obtain ⟨m, j₂, hm, h⟩ := Run.exec_bind_eq_ok.mp h
  obtain ⟨_, j₃, htell, h⟩ := Run.exec_bind_eq_ok.mp h
  obtain ⟨rfl, rfl⟩ := Run.exec_pure_eq_ok.mp h
  obtain ⟨vs, hchosen, heval⟩ := chosen_of_exec hm
  exact ⟨t, m, vs, j₂, ⟨ht, j₂, hm⟩, hchosen, heval, (Run.exec_tell_eq_ok.mp htell).symm, rfl⟩

variable {n : ℕ} {s : Search} {t : Standing} {m : Move} {vs : List Vertex}

/-- **No slot gets worse** in an iteration. -/
theorem noWorse_next (hd : t.Describes n s.simplex) (hm : m.Chosen s.trace.size t vs) :
    (s.next t m).simplex.NoWorse s.simplex :=
  Simplex.noWorse_settle hd.worst fun _ hv => (hm.key_lt hd hv).le

/-- An iteration that takes a newcomer lessens the sum of keys. -/
theorem keySum_next_lt (hd : t.Describes n s.simplex) (hm : m.Chosen s.trace.size t vs)
    {v : Vertex} (hv : v ∈ m.newcomer) :
    keySum (s.next t m).simplex.values < keySum s.simplex.values := by
  have hnew : m.newcomer = some v := hv
  have hvalues : (s.next t m).simplex.values = s.simplex.values.set t.worstSlot v.augmented := by
    rw [next, hnew, Simplex.settle, Simplex.values, List.map_set]
    rfl
  rw [hvalues]
  exact keySum_set_lt (Simplex.getElem?_values hd.worst) (hm.key_lt hd hv)

end Search

end NelderMead
