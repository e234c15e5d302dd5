import NelderMead.Proofs.Accounting
import NelderMead.Proofs.FailFast
import NelderMead.Proofs.Oblivious

/-!
# Longer runs begin like shorter ones

No iteration knows how many there will be.  A run of `k` iterations and a longer one from the same
start do the same up to the end of the shorter one: if the longer run succeeds, the shorter one is
what can be read off its first rows, and if the shorter run fails, so does the longer one, for the
same cause and after the same calls.

There is one exception.  A run sets room for all its rows aside before the first iteration, so a
longer run can end there, after its first simplex, for want of room.

* `SearchResult.upTo` — the result after `k` of the iterations.
* `Search.prefix_of_iterates` — iterations append to rows and counts.
* `Search.goOn_upTo`, `Search.goOn_fails` — a search after its first simplex.
* `Anytime`, **`Problem.anytime`** — two runs of a problem; `not_anytime_brittle` has the exception.
-/

namespace NelderMead

variable {σ : Type} {p : PenaltyFunction σ} {n k l m : ℕ} {points : List Point}
  {j₀ j j' : Journal σ}

/-! ## First rows -/

/-- The first `k` rows of a matrix. -/
def Matrix.firstRows (k : ℕ) (a : Matrix) : Matrix :=
  ⟨a.cols, a.rows.take k, fun r hr => a.length_row r (List.mem_of_mem_take hr)⟩

lemma Matrix.ofRows_take {cols : ℕ} {rows : List Point} {a : Matrix}
    (h : ofRows cols rows = .ok a) (k : ℕ) : ofRows cols (rows.take k) = .ok (a.firstRows k) := by
  obtain ⟨rfl, rfl⟩ := rows_of_ofRows h
  exact ofRows_of_length (a.firstRows k).length_row

namespace SearchResult

/-- **The result after `k` of the iterations**: the first `k` rows of each column, and the
evaluations spent before the next row, or all of them if there is none. -/
def upTo (r : SearchResult) (k : ℕ) : SearchResult where
  evaluations := r.samplesAtIteration.getD k r.evaluations
  iterations := k
  f := r.f.take k
  g := r.g.firstRows k
  x := r.x.firstRows k
  bestF := r.bestF.take k
  bestG := r.bestG.firstRows k
  bestX := r.bestX.firstRows k
  samplesAtIteration := r.samplesAtIteration.take k

lemma ofTrace_upTo {evaluations : ℕ} {t u : Trace} {r : SearchResult}
    (h : ofTrace n m evaluations t = .ok r) (hrows : u.rows.toList = t.rows.toList.take k)
    (hk : u.rows.toList.length = k) :
    ofTrace n m (r.samplesAtIteration.getD k r.evaluations) u = .ok (r.upTo k) := by
  have hread := ofTrace_eq_ok_iff.mp h
  have htake : ∀ {cols : ℕ} {read : Row → Point} {a : Matrix},
      Matrix.ofRows cols (t.rows.toList.map read) = .ok a →
        Matrix.ofRows cols (u.rows.toList.map read) = .ok (a.firstRows k) := by
    intro cols read a ha
    rw [hrows, List.map_take]
    exact Matrix.ofRows_take ha k
  have hg := htake hread.ofRows_g
  have hx := htake hread.ofRows_x
  have hbestG := htake hread.ofRows_bestG
  have hbestX := htake hread.ofRows_bestX
  refine ofTrace_eq_ok_iff.mpr ⟨⟨rfl, hk.symm, ?_, (rows_of_ofRows hg).1, (rows_of_ofRows hx).1, ?_,
    (rows_of_ofRows hbestG).1, (rows_of_ofRows hbestX).1, ?_⟩, hg, hx, hbestG, hbestX⟩
  · rw [hrows, List.map_take, ← hread.f]
    rfl
  · rw [hrows, List.map_take, ← hread.bestF]
    rfl
  · rw [hrows, List.map_take, ← hread.samplesAtIteration]
    rfl

end SearchResult

/-! ## Searches after their first simplex -/

/-- Behind a prefix that ends in `a` stands the entry `a`, which may be the last one. -/
lemma getD_prefix_length {xs ys : List ℕ} {a b : ℕ} (h : xs ++ [a] <+: ys ++ [b]) :
    ys.getD xs.length b = a := by
  obtain ⟨rest, h⟩ := h
  have hget : (ys ++ [b])[xs.length]? = some a := by
    rw [← h]
    simp
  rcases lt_or_ge xs.length ys.length with hlt | hge
  · rw [List.getElem?_append_left hlt] at hget
    rw [List.getD_eq_getElem?_getD, hget, Option.getD_some]
  · have hlength := congrArg List.length h
    have heq : xs.length = ys.length := by
      simp only [List.length_append, List.length_singleton] at hlength
      omega
    rw [heq, List.getElem?_concat_length, Option.some.injEq] at hget
    rw [List.getD_eq_getElem?_getD, List.getElem?_eq_none hge, Option.getD_none, hget]

namespace Search

/-- Iterations append to rows and counts. -/
lemma prefix_of_iterates {s t : Search} (h : (iterates p n l s).exec j = (.ok t, j')) :
    s.trace.rows.toList <+: t.trace.rows.toList ∧ s.counts <+: t.counts := by
  induction l generalizing s j with
  | zero =>
    obtain ⟨rfl, rfl⟩ := Run.exec_pure_eq_ok.mp h
    exact ⟨List.prefix_rfl, List.prefix_rfl⟩
  | succ l ih =>
    obtain ⟨u, j₁, hu, hrest⟩ := Run.exec_bind_eq_ok.mp h
    obtain ⟨st, mv, ws, j₂, -, -, -, -, rfl⟩ := next_of_exec hu
    obtain ⟨hrows, hcounts⟩ := ih hrest
    rw [rows_next] at hrows
    rw [counts_next] at hcounts
    exact ⟨(List.prefix_append _ _).trans hrows, (List.prefix_append _ _).trans hcounts⟩

section Shaped

variable {vs : Simplex} (hdim : ∀ c ∈ p.constraints, Agrees n c.dimension) (hn : 0 < n)
  (hlength : points.length = n + 1)
  (hvs : vs.length = points.length ∧ ∀ v ∈ vs, v.sample.Shaped n p.constraintCount)

include hdim hn hlength hvs

/-- The states of a search that starts from the vertices `vs` have their shape. -/
lemma shaped_of_iterates {s : Search}
    (h : (iterates p n k ⟨vs, points.length, {}⟩).exec j = (.ok s, j')) :
    s.Shaped n p.constraintCount := by
  have hfirst : Shaped n p.constraintCount ⟨vs, points.length, {}⟩ :=
    ⟨hvs.1.trans hlength, hvs.2, List.forall_mem_nil _⟩
  have hends : Ends p n True (fun s' : Search => s'.Shaped n p.constraintCount) j _ :=
    ends_iterates hdim hn k hfirst j
  rw [h] at hends
  cases hends with
  | returned value whole grows => exact value

/-- **A search that fails** after its first simplex fails in the same way with more iterations. -/
lemma goOn_fails (hkm : k ≤ m) (hfits : Trace.Fits n p.constraintCount m)
    {e : Failure SolverError} (h : (goOn p n points k vs).exec j = (.error e, j')) :
    (goOn p n points m vs).exec j = (.error e, j') := by
  rw [goOn_of_fits (hfits.mono hkm)] at h
  rw [goOn_of_fits hfits, ← Nat.add_sub_cancel' hkm, iterates_add, bind_assoc]
  rcases Run.exec_bind_eq_error.mp h with h | ⟨s, j₁, hs, h⟩
  · exact Run.exec_bind_eq_error.mpr (Or.inl h)
  · obtain ⟨r, _, -, hreport⟩ :=
      exists_exec_report (shaped_of_iterates hdim hn hlength hvs hs) j₁
    cases h.symm.trans hreport

/-- **The first rows of a search that succeeds** after its first simplex are the result of fewer
iterations, which evaluate the first of its vertices. -/
lemma goOn_upTo (hkm : k ≤ m) (hprogress : Progress p n points j₀ 0 vs ⟨vs, points.length, {}⟩ j)
    {r : SearchResult} (h : (goOn p n points m vs).exec j = (.ok r, j')) :
    ∃ (us ws : List Vertex) (js : Journal σ), (goOn p n points k vs).exec j = (.ok (r.upTo k), js) ∧
      us.length = (r.upTo k).evaluations ∧
      js.calls.toList = j₀.calls.toList ++ (us.map Vertex.sample).flatMap Sample.calls ∧
      j'.calls.toList = j₀.calls.toList ++ ((us ++ ws).map Vertex.sample).flatMap Sample.calls := by
  by_cases hfits : Trace.Fits n p.constraintCount m
  · have hshaped : ∀ {k j j' s}, (iterates p n k ⟨vs, points.length, {}⟩).exec j = (.ok s, j') →
        s.Shaped n p.constraintCount := fun hs => shaped_of_iterates hdim hn hlength hvs hs
    rw [goOn_of_fits hfits] at h
    rw [goOn_of_fits (hfits.mono hkm)]
    obtain ⟨t, jt, ht, hreport⟩ := Run.exec_bind_eq_ok.mp h
    obtain ⟨_, _, hr, hlong⟩ := exists_exec_report (hshaped ht) jt
    rw [hreport, Prod.mk.injEq, Except.ok.injEq] at hlong
    obtain ⟨rfl, rfl⟩ := hlong
    rw [← Nat.add_sub_cancel' hkm] at ht
    obtain ⟨s, js, hs, hrest⟩ := exec_iterates_add.mp ht
    obtain ⟨us, hus⟩ := hprogress.of_iterates hn hlength hs
    obtain ⟨ws, hws⟩ := hus.of_iterates hn hlength hrest
    obtain ⟨hrows, hcounts⟩ := prefix_of_iterates hrest
    have hsize : s.trace.rows.toList.length = k := by
      rw [Array.length_toList]
      exact hus.size_trace.trans (Nat.zero_add k)
    have htake : s.trace.rows.toList = t.trace.rows.toList.take k := by
      rw [← hsize]
      exact List.prefix_iff_eq_take.mp hrows
    have hevaluations : r.samplesAtIteration.getD k r.evaluations = s.evaluations := by
      rw [← (shows_of_ofTrace hr).counts, counts] at hcounts
      have hget := getD_prefix_length hcounts
      rwa [List.length_map, hsize] at hget
    obtain ⟨rs, _, hrs, hshort⟩ := exists_exec_report (hshaped hs) js
    have hupTo := SearchResult.ofTrace_upTo hr htake hsize
    rw [hevaluations, hrs] at hupTo
    obtain rfl := Except.ok.inj hupTo
    refine ⟨vs ++ us, ws, _, Run.exec_bind_eq_ok.mpr ⟨s, js, hs, hshort⟩, ?_, ?_, ?_⟩
    · exact hus.evaluations_eq.symm.trans hevaluations.symm
    · exact hus.calls
    · exact hws.calls
  · cases h.symm.trans (goOn_of_not_fits hfits points vs j)

end Shaped

end Search

/-! ## Runs of a problem -/

/-- **A short run and a longer one** from the same start, with their outcomes and their calls. -/
structure Anytime (room : Prop) (k : ℕ) (short : Except (Failure SolverError) SearchResult)
    (cs : List Call) (long : Except (Failure SolverError) SearchResult) (ds : List Call) :
    Prop where
  /-- If the longer run succeeds, the short one returns its first rows and makes its first
  evaluations. -/
  returns : ∀ r, long = .ok r → short = .ok (r.upTo k) ∧
    ds = (samplesOf ds).flatMap Sample.calls ∧
    cs = ((samplesOf ds).take (r.upTo k).evaluations).flatMap Sample.calls
  /-- If the short run fails, so does the longer one, in the same way or for want of room. -/
  fails : ∀ e, short = .error e → long = .error e ∧ ds = cs ∨
    ¬room ∧ (∃ f, long = .error (.fault f)) ∧ ds <+: cs

/-- **Longer searches begin like shorter ones** from the same journal. -/
theorem anytime_search (hdim : ∀ c ∈ p.constraints, Agrees n c.dimension) (hn : 0 < n)
    (hpoints : ∀ x ∈ points, x.length = n) (hlength : points.length = n + 1) (hkm : k ≤ m)
    (hempty : j₀.calls = #[]) :
    Anytime (Trace.Fits n p.constraintCount m) k ((search p n points k).exec j₀).1
      ((search p n points k).exec j₀).2.calls.toList ((search p n points m).exec j₀).1
      ((search p n points m).exec j₀).2.calls.toList := by
  have hends : Ends p n True (fun vs : List Vertex => vs.length = points.length ∧
      ∀ v ∈ vs, v.sample.Shaped n p.constraintCount) j₀ _ := ends_mapM_evaluate hdim hpoints j₀
  rw [search_eq, search_eq, Run.exec_bind, Run.exec_bind]
  rcases hfirst : (points.mapM (Vertex.evaluate p)).exec j₀ with ⟨e | vs, j₁⟩
  · exact ⟨fun r hr => (nomatch hr), fun e' he => Or.inl ⟨he, rfl⟩⟩
  rw [hfirst] at hends
  obtain ⟨hpointsEq, hevaluated⟩ := evaluated_of_mapM hfirst
  have hprogress : Progress p n points j₀ 0 vs ⟨vs, points.length, {}⟩ j₁ :=
    .first hpointsEq hevaluated
  cases hends with
  | returned hvs whole grows =>
    dsimp only
    constructor
    · intro r hr
      rcases hlong : (Search.goOn p n points m vs).exec j₁ with ⟨out, jl⟩
      obtain rfl : out = .ok r := by rwa [hlong] at hr
      obtain ⟨us, ws, js, hshort, hcount, hcalls, hcalls'⟩ :=
        Search.goOn_upTo hdim hn hlength hvs hkm hprogress hlong
      have hsamples : samplesOf jl.calls.toList = (us ++ ws).map Vertex.sample := by
        rw [hcalls', hempty]
        exact samplesOf_flatMap _
      rw [hshort]
      refine ⟨rfl, ?_, ?_⟩
      · rw [hsamples, hcalls', hempty]
        rfl
      · rw [hsamples, ← hcount, List.map_append, List.take_left' (List.length_map _), hcalls,
          hempty]
        rfl
    · intro e he
      by_cases hfits : Trace.Fits n p.constraintCount m
      · rcases hshort : (Search.goOn p n points k vs).exec j₁ with ⟨out, js⟩
        obtain rfl : out = .error e := by rwa [hshort] at he
        rw [Search.goOn_fails hdim hn hlength hvs hkm hfits hshort]
        exact Or.inl ⟨rfl, rfl⟩
      · have hfault := Search.goOn_of_not_fits hfits points vs j₁
        refine Or.inr ⟨hfits, ⟨_, congrArg Prod.fst hfault⟩, ?_⟩
        rw [hfault]
        exact (ends_goOn hdim hn hlength hvs k j₁).prefix_calls

namespace Problem

variable {q : Problem σ} {o : Options} {start : Start} {w : σ}

/-- **Longer runs begin like shorter ones.** -/
theorem anytime (hkm : k ≤ m) {short long : Except (Failure SolverError) SearchResult}
    (hshort : (q.run o k start).execIn w = (short, j))
    (hlong : (q.run o m start).execIn w = (long, j')) :
    Anytime (Trace.Fits q.dimension q.constraintCount m) k short j.calls.toList long
      j'.calls.toList := by
  by_cases haccepts : q.Accepts o start
  · obtain ⟨j₀, hworld, hempty, hexec⟩ := haccepts.exec_run k w
    obtain ⟨j₁, hworld', hempty', hexec'⟩ := haccepts.exec_run m w
    have hsame : j₀.SameCalls j₁ := ⟨hworld.trans hworld'.symm, hempty.trans hempty'.symm⟩
    obtain ⟨houtcome, hjournal⟩ :=
      oblivious_search haccepts.penalty q.dimension (start.points q o) m j₀ j₁ hsame
    have h := anytime_search (n := q.dimension) (p := haccepts.penalty) q.agrees_constraint
      q.dimension_pos haccepts.length_of_mem_points haccepts.length_points hkm hempty
    rw [houtcome, hjournal.calls, ← hexec, ← hexec', hshort, hlong] at h
    exact h
  · obtain ⟨e, -, hrefuses⟩ := refuses_of_not_accepts haccepts
    obtain ⟨js, hs, -, hcallss⟩ := hrefuses k w
    obtain ⟨jl, hl, -, hcallsl⟩ := hrefuses m w
    rw [hshort, Prod.mk.injEq] at hs
    rw [hlong, Prod.mk.injEq] at hl
    obtain ⟨rfl, rfl⟩ := hs
    obtain ⟨rfl, rfl⟩ := hl
    refine ⟨fun r hr => (nomatch hr), fun e' he => Or.inl ⟨he, ?_⟩⟩
    rw [hcallss, hcallsl]

theorem anytime_square : ∃ r j short js,
    (square.run {} 2 (.given segment)).execIn () = (.ok r, j) ∧
      (square.run {} 1 (.given segment)).execIn () = (short, js) ∧
      Anytime (Trace.Fits 1 1 2) 1 short js.calls.toList (.ok r) j.calls.toList := by
  have hsucceeds : ((square.run {} 2 (.given segment)).execIn ()).1.isOk = true := by
    decide +kernel
  rcases hlong : (square.run {} 2 (.given segment)).execIn () with ⟨e | r, j⟩
  · rw [hlong] at hsucceeds
    cases hsucceeds
  · rcases hshort : (square.run {} 1 (.given segment)).execIn () with ⟨short, js⟩
    exact ⟨r, j, short, js, rfl, rfl, anytime (Nat.le_succ 1) hshort hlong⟩

/-- **Want of room is an exception.**  One iteration of the brittle identity fails when it evaluates
the reflected point.  A run of `2 ^ 62` iterations does not get that far, as its rows would have no
addresses. -/
theorem not_anytime_brittle : ¬∀ (k m : ℕ) (e : Failure SolverError) (j : Journal Unit), k ≤ m →
    (brittle.run {} k (.given segment)).execIn () = (.error e, j) →
      ∃ j' : Journal Unit, (brittle.run {} m (.given segment)).execIn () = (.error e, j') ∧
        j'.calls = j.calls := by
  intro h
  have hfault : (match (brittle.run {} (2 ^ 62) (.given segment)).execIn () with
      | (.error (.fault _), _) => true
      | _ => false) = true := by
    decide +kernel
  obtain ⟨e, j, hrun, -⟩ := exec_brittle
  obtain ⟨j', hlong, -⟩ := h 1 (2 ^ 62) _ j Nat.one_le_two_pow hrun
  rw [hlong] at hfault
  cases hfault

end Problem

end NelderMead
