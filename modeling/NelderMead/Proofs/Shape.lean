import NelderMead.Problem
import NelderMead.Proofs.Run

/-!
# Everything has its shape

In dimension `n` a search keeps `n + 1` vertices, each a point of length `n` with the values of all
constraints.  As long as it does, no operation between two evaluations can fault: all positions that
are read exist and all vectors that meet are of one length.

* `Constraint.evaluate_cases` — at a point of its dimension a constraint has a value or reports an
  error of its own.
* `Sample.Shaped`, `Search.Shaped` — the shape of a sample and of a state.
* **`Simplex.exists_standing`**, `Point.exists_toward` — what an iteration computes can be computed.
* **`Search.Shaped.next`** — an iteration keeps the shape.
* **`Search.Shaped.exists_result`** — the result can be read off a state.
-/

namespace NelderMead

variable {σ : Type}

/-- Steps that all succeed succeed together. -/
lemma exists_mapM_ok {ε α β : Type} {f : α → Except ε β} {P : β → Prop} {l : List α}
    (h : ∀ a ∈ l, ∃ b, f a = .ok b ∧ P b) :
    ∃ bs, l.mapM f = .ok bs ∧ bs.length = l.length ∧ ∀ b ∈ bs, P b := by
  induction l with
  | nil => exact ⟨[], rfl, rfl, List.forall_mem_nil _⟩
  | cons a l ih =>
    obtain ⟨⟨b, hb, hPb⟩, hl⟩ := List.forall_mem_cons.mp h
    obtain ⟨bs, hbs, hlength, hP⟩ := ih hl
    refine ⟨b :: bs, ?_, congrArg (· + 1) hlength, List.forall_mem_cons.mpr ⟨hPb, hP⟩⟩
    rw [List.mapM_cons, hb, hbs]
    rfl

/-! ## Points -/

namespace Point

variable {x y : Point}

lemma exists_dot (h : x.length = y.length) : ∃ v, dot x y = .ok v :=
  ⟨_, matching_of_eq _ h⟩

lemma exists_toward (h : x.length = y.length) (k : Float) : ∃ z, toward x y k = .ok z :=
  ⟨_, matching_of_eq _ h⟩

lemma exists_foldlM_add {ps : List Point} (h : ∀ p ∈ ps, p.length = x.length) :
    ∃ z, ps.foldlM add x = .ok z := by
  induction ps generalizing x with
  | nil => exact ⟨x, rfl⟩
  | cons p ps ih =>
    obtain ⟨hp, hps⟩ := List.forall_mem_cons.mp h
    have hadd : add x p = .ok (List.zipWith (· + ·) x p) := matching_of_eq _ hp.symm
    have hlength := length_add hadd
    obtain ⟨z, hz⟩ := ih fun q hq => (hps q hq).trans hlength.symm
    refine ⟨z, ?_⟩
    rw [List.foldlM_cons, hadd]
    exact hz

lemma exists_mean {n : ℕ} {ps : List Point} (h : ∀ p ∈ ps, p.length = n) :
    ∃ c, mean n ps = .ok c := by
  obtain ⟨total, htotal⟩ := exists_foldlM_add fun p hp => (h p hp).trans (length_zeros n).symm
  exact ⟨_, bind_eq_ok_iff.mpr ⟨total, htotal, rfl⟩⟩

end Point

/-! ## Constraints -/

lemma LinearConstraint.exists_value {g : LinearConstraint} {x : Point}
    (h : g.a.length = x.length) : ∃ v, g.value x = .ok v := by
  obtain ⟨v, hv⟩ := Point.exists_dot h
  exact ⟨_, bind_eq_ok_iff.mpr ⟨v, hv, rfl⟩⟩

lemma QuadraticConstraint.exists_form {g : QuadraticConstraint} {x : Point} (h : g.Fits x) :
    ∃ v, g.form x = .ok v := by
  obtain ⟨hrows, hcols, ha⟩ := h
  have hdot : ∀ r ∈ g.q.rows, ∃ v, Point.dot r x = .ok v ∧ True := by
    intro r hr
    obtain ⟨v, hv⟩ := Point.exists_dot ((g.q.length_row r hr).trans hcols)
    exact ⟨v, hv, trivial⟩
  obtain ⟨qx, hqx, hlength, -⟩ := exists_mapM_ok hdot
  obtain ⟨quadratic, hquadratic⟩ := Point.exists_dot (hlength.trans hrows).symm
  obtain ⟨linear, hlinear⟩ := Point.exists_dot ha
  exact ⟨_, bind_eq_ok_iff.mpr ⟨qx, hqx, bind_eq_ok_iff.mpr ⟨quadratic, hquadratic,
    bind_eq_ok_iff.mpr ⟨linear, hlinear, rfl⟩⟩⟩⟩

/-- At a point of its dimension a linear constraint has one value, whatever the world. -/
lemma Constraint.exists_linear {g : LinearConstraint} {x : Point} (h : g.a.length = x.length) :
    ∃ v, g.value x = .ok v ∧ ∀ w : σ, ((linear g).evaluate x w).1 = .ok v := by
  obtain ⟨v, hv⟩ := LinearConstraint.exists_value h
  refine ⟨v, hv, fun w => ?_⟩
  show (g.value x).mapError Failure.fault = .ok v
  rw [hv]
  rfl

/-- **A constraint at a point of its dimension** has a value or reports an error, but never
faults. -/
theorem Constraint.evaluate_cases {g : Constraint σ} {x : Point} (h : Agrees x.length g.dimension)
    (w : σ) :
    (∃ v, (g.evaluate x w).1 = .ok v) ∨ ∃ e, (g.evaluate x w).1 = .error (.error e) := by
  cases g with
  | blackBox g =>
    have heq : ((blackBox g).evaluate x w).1 = (g.call x w).1.mapError Failure.error := rfl
    rw [heq]
    cases (g.call x w).1 with
    | error e => exact Or.inr ⟨e, rfl⟩
    | ok v => exact Or.inl ⟨v, rfl⟩
  | linear g =>
    obtain ⟨v, -, hv⟩ := exists_linear (h g.a.length rfl)
    exact Or.inl ⟨v, hv w⟩
  | quadratic g =>
    show (∃ v, g.value x = .ok v) ∨ ∃ e, g.value x = .error (.error e)
    rw [QuadraticConstraint.value]
    split_ifs with hfits
    · obtain ⟨v, hv⟩ := QuadraticConstraint.exists_form hfits
      rw [hv]
      exact Or.inl ⟨v, rfl⟩
    · exact Or.inr ⟨_, rfl⟩

/-! ## Standings -/

namespace Simplex

variable {s : Simplex} {n : ℕ}

lemma exists_entry_order (hlen : s.length = n + 1) {i : ℕ} (hi : i ≤ n) :
    ∃ slot, entry s.order i = .ok slot ∧ ∃ v, entry s slot = .ok v := by
  have hlength : s.order.length = n + 1 := by
    rw [order, length_rankOrder, List.length_map, hlen]
  have hrank : s.order[i]? = some s.order[i] := List.getElem?_eq_getElem (by omega)
  have hmem : s.order[i] ∈ List.range (s.map Vertex.augmented).length :=
    (rankOrder_perm _).mem_iff.mp (List.getElem_mem _)
  have hslot : s.order[i] < s.length := by simpa using hmem
  exact ⟨s.order[i], entry_eq_ok_iff.mpr hrank, s[s.order[i]], entry_of_lt hslot⟩

lemma exists_ofRank (hlen : s.length = n + 1) {i : ℕ} (hi : i ≤ n) :
    ∃ v, s.ofRank i = .ok v := by
  obtain ⟨slot, hslot, v, hv⟩ := exists_entry_order hlen hi
  exact ⟨v, bind_eq_ok_iff.mpr ⟨slot, hslot, hv⟩⟩

lemma exists_ofRanksBelow (s : Simplex) (n : ℕ) :
    ∃ vs, s.ofRanksBelow n = .ok vs ∧ ∀ v ∈ vs, v ∈ s := by
  have hentry : ∀ slot ∈ s.order.take n, ∃ v, entry s slot = .ok v ∧ v ∈ s := by
    intro slot hslot
    have hmem := (rankOrder_perm _).mem_iff.mp (List.mem_of_mem_take hslot)
    have hlt : slot < s.length := by simpa using hmem
    exact ⟨s[slot], entry_of_lt hlt, List.getElem_mem hlt⟩
  obtain ⟨vs, hvs, -, hmem⟩ := exists_mapM_ok hentry
  exact ⟨vs, hvs, hmem⟩

/-- **Every simplex of the right shape has a standing.** -/
theorem exists_standing (hlen : s.length = n + 1) (hpoints : ∀ v ∈ s, v.point.length = n) :
    ∃ t, s.standing n = .ok t := by
  obtain ⟨best, hbest⟩ := exists_ofRank hlen (Nat.zero_le n)
  obtain ⟨second, hsecond⟩ := exists_ofRank hlen (Nat.sub_le n 1)
  obtain ⟨slot, hslot, worst, hworst⟩ := exists_entry_order hlen le_rfl
  obtain ⟨others, hothers, hmem⟩ := s.exists_ofRanksBelow n
  have hlengths : ∀ p ∈ others.map Vertex.point, p.length = n :=
    List.forall_mem_map.mpr fun v hv => hpoints v (hmem v hv)
  obtain ⟨centroid, hcentroid⟩ := Point.exists_mean hlengths
  refine ⟨⟨best, second, worst, slot, centroid⟩, ?_⟩
  simp [standing, hbest, hsecond, hslot, hworst, hothers, hcentroid, bind, Except.bind, pure,
    Except.pure]

end Simplex

/-! ## Shapes -/

/-- **The shape of a sample**: the dimension of its point and the number of its constraints. -/
structure Sample.Shaped (n m : ℕ) (y : Sample) : Prop where
  point : y.point.length = n
  constraints : y.constraints.length = m

instance (n m : ℕ) (y : Sample) : Decidable (y.Shaped n m) :=
  decidable_of_iff (y.point.length = n ∧ y.constraints.length = m)
    ⟨fun h => ⟨h.1, h.2⟩, fun h => ⟨h.point, h.constraints⟩⟩

/-- **The shape of a state** in dimension `n` with `m` constraints. -/
structure Search.Shaped (n m : ℕ) (s : Search) : Prop where
  length_simplex : s.simplex.length = n + 1
  vertex : ∀ v ∈ s.simplex, v.sample.Shaped n m
  row : ∀ row ∈ s.trace.rows.toList, row.current.Shaped n m ∧ row.best.Shaped n m

lemma Trace.better_mem (last : Option Row) (y : Sample) :
    better last y = y ∨ ∃ row ∈ last, better last y = row.best := by
  cases last with
  | none => exact Or.inl rfl
  | some row =>
    rw [better]
    split_ifs
    · exact Or.inl rfl
    · exact Or.inr ⟨row, rfl, rfl⟩

/-- **Columns can be made of rows** of one shape. -/
theorem Trace.exists_ofTrace {n m : ℕ} {t : Trace}
    (hrows : ∀ row ∈ t.rows.toList, row.current.Shaped n m ∧ row.best.Shaped n m)
    (evaluations : ℕ) : ∃ r, SearchResult.ofTrace n m evaluations t = .ok r := by
  have hcolumn : ∀ (cols : ℕ) (read : Row → Point),
      (∀ row ∈ t.rows.toList, (read row).length = cols) →
        ∃ c, Matrix.ofRows cols (t.rows.toList.map read) = .ok c :=
    fun cols read hread => ⟨_, Matrix.ofRows_of_length (List.forall_mem_map.mpr hread)⟩
  obtain ⟨g, hg⟩ := hcolumn m _ fun row hrow => (hrows row hrow).1.constraints
  obtain ⟨x, hx⟩ := hcolumn n _ fun row hrow => (hrows row hrow).1.point
  obtain ⟨bestG, hbestG⟩ := hcolumn m _ fun row hrow => (hrows row hrow).2.constraints
  obtain ⟨bestX, hbestX⟩ := hcolumn n _ fun row hrow => (hrows row hrow).2.point
  exact ⟨_, bind_eq_ok_iff.mpr ⟨g, hg, bind_eq_ok_iff.mpr ⟨x, hx, bind_eq_ok_iff.mpr
    ⟨bestG, hbestG, bind_eq_ok_iff.mpr ⟨bestX, hbestX, rfl⟩⟩⟩⟩⟩

namespace Search.Shaped

variable {n m : ℕ} {s : Search}

lemma exists_standing (h : s.Shaped n m) : ∃ t, s.simplex.standing n = .ok t :=
  Simplex.exists_standing h.length_simplex fun v hv => (h.vertex v hv).point

/-- **An iteration keeps the shape.** -/
theorem next (h : s.Shaped n m) {t : Standing} (hd : t.Describes n s.simplex) {mv : Move}
    (hnew : ∀ v ∈ mv.newcomer, v.sample.Shaped n m) : (s.next t mv).Shaped n m where
  length_simplex := (Simplex.length_settle _ _ _).trans h.length_simplex
  vertex := by
    intro v hv
    rcases Simplex.mem_settle hv with hv | hv
    · exact h.vertex v hv
    · exact hnew v hv
  row := by
    have hbest : t.best.sample.Shaped n m := h.vertex _ hd.best_mem
    rw [rows_next]
    refine List.forall_mem_append.mpr ⟨h.row, List.forall_mem_singleton.mpr ⟨hbest, ?_⟩⟩
    rcases Trace.better_mem s.trace.rows.back? t.best.sample with heq | ⟨row, hrow, heq⟩
    · show (Trace.better _ _).Shaped n m
      rw [heq]
      exact hbest
    · show (Trace.better _ _).Shaped n m
      rw [heq]
      exact (h.row row (Array.mem_toList_iff.mpr (Array.mem_of_back? hrow))).2

/-- **The result can be read off a state.** -/
theorem exists_result (h : s.Shaped n m) (evaluations : ℕ) :
    ∃ r, SearchResult.ofTrace n m evaluations s.trace = .ok r ∧ ∃ best, r.fmin = .ok best := by
  obtain ⟨r, hr⟩ := Trace.exists_ofTrace h.row evaluations
  have hshows := shows_of_ofTrace hr
  refine ⟨r, hr, ?_⟩
  rw [SearchResult.fmin, SearchResult.atLast]
  cases hiterations : r.iterations with
  | zero => exact ⟨none, rfl⟩
  | succ last =>
    have hlast : last < r.bestF.length := by
      rw [hshows.bestF, List.length_map, ← hshows.iterations_eq, hiterations]
      exact Nat.lt_succ_self last
    refine ⟨some r.bestF[last], ?_⟩
    simp only [entry_of_lt hlast]
    rfl

end Search.Shaped

end NelderMead
