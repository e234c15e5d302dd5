import NelderMead.Proofs.Accounting
import NelderMead.Proofs.Descent
import NelderMead.Proofs.OrderOnly
import NelderMead.Proofs.Provenance
import NelderMead.Proofs.SatisfiedConstraint
import NelderMead.Proofs.Unmoved

/-!
# Standstill

A rejected contraction leaves the simplex as it is.  So if the functions return the same whenever
they are asked, the next iteration asks for the same two points, finds the same there and rejects the
contraction again: the run stands still up to its end, at two evaluations an iteration, and cannot
fail any more.

* `Standing.Rejects` — that the contraction is rejected, with the two vertices that are evaluated;
  **`Standing.rejects_of_exec`** reads it off a choice, and `Rejects.exec_choose` makes it again.
* `Search.Idled`, **`Search.Idled.step`** — states at a standstill, and one iteration from them.
* `Standstill`, **`Problem.IgnoresWorld.standstill`** — the rest of a run.
-/

namespace NelderMead

variable {σ : Type} {p : PenaltyFunction σ} {n : ℕ} {j j' : Journal σ}

/-! ## Finding the same again -/

lemma outcome_of_consult {t : Target} {x : Point}
    {ask : Point → StateM σ (Except (Failure EvalError) Float)} {v : Float}
    {rename : EvalError → SolverError}
    (h : ((Run.consult t x ask).mapError rename).exec j = (.ok v, j')) :
    (ask x j.world).1 = .ok v := by
  have hconsult := Run.exec_mapError_eq_ok.mp h
  rw [Run.exec_consult, Prod.mk.injEq] at hconsult
  exact hconsult.1

lemma outcome_of_objectiveAt {x : Point} {v : Float}
    (h : (p.objectiveAt x).exec j = (.ok v, j')) : (p.objective.call x j.world).1 = .ok v := by
  have hanswer : ((p.objective.call x j.world).1.mapError Failure.error : Except _ Float) = .ok v :=
    outcome_of_consult h
  cases hcall : (p.objective.call x j.world).1 with
  | error e =>
    rw [hcall] at hanswer
    cases hanswer
  | ok v' =>
    rw [hcall] at hanswer
    exact congrArg Except.ok (Except.ok.inj hanswer)

/-- Constraints that ignore the world return what they returned once. -/
lemma values_of_constraintsFrom {x : Point} {cs : List (Constraint σ)} {gs : Point} {i : ℕ}
    (hcs : ∀ c ∈ cs, ∀ x w w', (c.evaluate x w).1 = (c.evaluate x w').1)
    (h : (PenaltyFunction.constraintsFrom x i cs).exec j = (.ok gs, j')) :
    List.Forall₂ (fun c g => ∀ w, (c.evaluate x w).1 = .ok g) cs gs := by
  induction cs generalizing i j gs with
  | nil =>
    obtain ⟨rfl, rfl⟩ := Run.exec_pure_eq_ok.mp h
    exact .nil
  | cons c cs ih =>
    obtain ⟨hc, hrest⟩ := List.forall_mem_cons.mp hcs
    obtain ⟨g, j₁, hg, h⟩ := Run.exec_bind_eq_ok.mp h
    obtain ⟨gs', j₂, hgs, h⟩ := Run.exec_bind_eq_ok.mp h
    obtain ⟨rfl, rfl⟩ := Run.exec_pure_eq_ok.mp h
    exact .cons (fun w => (hc x w j.world).trans (outcome_of_consult hg)) (ih hrest hgs)

/-! ## Rejected contractions -/

/-- The move of iteration `i` when its contraction is rejected. -/
def Move.rejection (i : ℕ) : Move := ⟨none, 2, .contractionRejected i⟩

/-- **The contraction is rejected** from the standing `t`: at the reflected point `y` is found and
at the contracted one `z`, and neither is good enough. -/
structure Standing.Rejects (p : PenaltyFunction σ) (t : Standing) (y z : Vertex) : Prop where
  reflected : t.Reaches t.worst (-reflection) y
  contracted : t.Reaches t.worst contraction z
  finds_reflected : p.Finds y
  finds_contracted : p.Finds z
  outside : ¬(t.best.augmented ≤ y.augmented ∧ y.augmented < t.secondWorst.augmented)
  notBest : ¬y.augmented < t.best.augmented
  notBetter : ¬z.augmented < t.worst.augmented

section Ignores

variable {q : Problem σ} {o : Options} {start : Start}

/-- What is found once is found in any world. -/
lemma Problem.IgnoresWorld.finds_of_exec (hq : q.IgnoresWorld) (h : q.Accepts o start) {x : Point}
    {v : Vertex} (hexec : (Vertex.evaluate h.penalty x).exec j = (.ok v, j')) :
    v.point = x ∧ h.penalty.Finds v := by
  obtain ⟨found, j₁, hfound, hpure⟩ := Run.exec_bind_eq_ok.mp hexec
  obtain ⟨rfl, rfl⟩ := Run.exec_pure_eq_ok.mp hpure
  obtain ⟨f, j₂, hf, hrest⟩ := Run.exec_bind_eq_ok.mp hfound
  obtain ⟨g, j₃, hg, hpure⟩ := Run.exec_bind_eq_ok.mp hrest
  obtain ⟨rfl, rfl⟩ := Run.exec_pure_eq_ok.mp hpure
  refine ⟨rfl, fun w => ?_, values_of_constraintsFrom hq.constraints hg, rfl⟩
  exact (hq.objective x w j.world).trans (outcome_of_objectiveAt hf)

namespace Standing

lemma finds_of_trial (hq : q.IgnoresWorld) (h : q.Accepts o start) {t : Standing}
    {target v : Vertex} {k : Float} (hexec : (t.trial h.penalty target k).exec j = (.ok v, j')) :
    t.Reaches target k v ∧ h.penalty.Finds v := by
  obtain ⟨x, j₁, hcheck, hv⟩ := Run.exec_bind_eq_ok.mp hexec
  obtain ⟨hx, rfl⟩ := Run.exec_check_eq_ok.mp hcheck
  obtain ⟨rfl, hfinds⟩ := hq.finds_of_exec h hv
  exact ⟨hx, hfinds⟩

/-- **A choice that tells of a rejected contraction** found two vertices that are not good enough,
and would find them again. -/
theorem rejects_of_exec (hq : q.IgnoresWorld) (h : q.Accepts o start) {i l : ℕ} {t : Standing}
    {m : Move} (hexec : (Move.choose h.penalty i t).exec j = (.ok m, j'))
    (hevent : m.event = .contractionRejected l) : ∃ y z, t.Rejects h.penalty y z := by
  obtain ⟨y, j₁, hy, hrest⟩ := Run.exec_bind_eq_ok.mp hexec
  obtain ⟨hreflected, hfinds⟩ := finds_of_trial hq h hy
  split_ifs at hrest with houtside hbest
  · obtain ⟨rfl, -⟩ := Run.exec_pure_eq_ok.mp hrest
    cases hevent
  · obtain ⟨e, j₂, -, hrest⟩ := Run.exec_bind_eq_ok.mp hrest
    split_ifs at hrest <;>
    · obtain ⟨rfl, -⟩ := Run.exec_pure_eq_ok.mp hrest
      cases hevent
  · obtain ⟨z, j₂, hz, hrest⟩ := Run.exec_bind_eq_ok.mp hrest
    obtain ⟨hcontracted, hfinds'⟩ := finds_of_trial hq h hz
    split_ifs at hrest with hbetter
    · obtain ⟨rfl, -⟩ := Run.exec_pure_eq_ok.mp hrest
      cases hevent
    · exact ⟨y, z, hreflected, hcontracted, hfinds, hfinds', houtside, hbest, hbetter⟩

end Standing

end Ignores

namespace Standing

variable {t : Standing} {y z v target : Vertex} {k : Float}

lemma exec_trial (hreaches : t.Reaches target k v) (hfinds : p.Finds v) (j : Journal σ) :
    ∃ j', (t.trial p target k).exec j = (.ok v, j') ∧ Evaluated p [v] j j' := by
  obtain ⟨j', hexec, hevaluated⟩ := hfinds.exec_evaluate j
  exact ⟨j', Run.exec_bind_eq_ok.mpr ⟨_, j, Run.exec_check_eq_ok.mpr ⟨hreaches, rfl⟩, hexec⟩,
    hevaluated⟩

/-- **The contraction is rejected again**, in any iteration and any world. -/
theorem Rejects.exec_choose (h : t.Rejects p y z) (i : ℕ) (j : Journal σ) :
    ∃ j', (Move.choose p i t).exec j = (.ok (.rejection i), j') ∧ Evaluated p [y, z] j j' := by
  obtain ⟨j₁, hy, hevaluated⟩ := exec_trial h.reflected h.finds_reflected j
  obtain ⟨j₂, hz, hevaluated'⟩ := exec_trial h.contracted h.finds_contracted j₁
  refine ⟨j₂, Run.exec_bind_eq_ok.mpr ⟨y, j₁, hy, ?_⟩, hevaluated.append hevaluated'⟩
  rw [if_neg h.outside, if_neg h.notBest]
  refine Run.exec_bind_eq_ok.mpr ⟨z, j₂, hz, ?_⟩
  rw [if_neg h.notBetter]
  rfl

end Standing

/-! ## States at a standstill -/

namespace Search

/-- **The state `u` with the journal `j'`, after `l` iterations at a standstill** from the state `s`
with the journal `j`. -/
structure Idled (t : Standing) (y z : Vertex) (s : Search) (j : Journal σ) (l : ℕ) (u : Search)
    (j' : Journal σ) : Prop where
  simplex : u.simplex = s.simplex
  evaluations : u.evaluations = s.evaluations + 2 * l
  rows : u.trace.rows.toList = s.trace.rows.toList ++ (List.range l).map fun i =>
    ⟨t.best.sample, Trace.better s.trace.rows.back? t.best.sample, s.evaluations + 2 * i⟩
  best : Trace.better u.trace.rows.back? t.best.sample =
    Trace.better s.trace.rows.back? t.best.sample
  calls : j'.calls.toList = j.calls.toList ++
    (List.replicate l [y.sample, z.sample]).flatten.flatMap Sample.calls
  events : j'.events.toList = j.events.toList ++
    (List.range l).map fun i => .contractionRejected (s.trace.size + i)

namespace Idled

variable {t : Standing} {y z : Vertex} {s u : Search} {l : ℕ}

lemma refl (t : Standing) (y z : Vertex) (s : Search) (j : Journal σ) : Idled t y z s j 0 s j where
  simplex := rfl
  evaluations := rfl
  rows := (List.append_nil _).symm
  best := rfl
  calls := (List.append_nil _).symm
  events := (List.append_nil _).symm

lemma unmoved (h : Idled t y z s j l u j') : Unmoved t s l u :=
  ⟨h.simplex, h.evaluations, h.rows, h.best⟩

lemma size_trace (h : Idled t y z s j l u j') : u.trace.size = s.trace.size + l := by
  have hlength := congrArg List.length h.rows
  rwa [List.length_append, List.length_map, List.length_range, Array.length_toList,
    Array.length_toList] at hlength

/-- **One more iteration** at a standstill. -/
theorem step (hr : t.Rejects p y z) (hst : s.simplex.standing n = .ok t)
    (h : Idled t y z s j l u j') :
    ∃ j'', (iterate p n u).exec j' = (.ok (u.next t (.rejection u.trace.size)), j'') ∧
      Idled t y z s j (l + 1) (u.next t (.rejection u.trace.size)) j'' := by
  obtain ⟨j₁, hchoose, hevaluated⟩ := hr.exec_choose u.trace.size j'
  have hstanding : u.simplex.standing n = .ok t := by rwa [h.simplex]
  refine ⟨{ j₁ with events := j₁.events.push (.contractionRejected u.trace.size) }, ?_, ?_⟩
  · refine Run.exec_bind_eq_ok.mpr ⟨t, j', Run.exec_check_eq_ok.mpr ⟨hstanding, rfl⟩, ?_⟩
    exact Run.exec_bind_eq_ok.mpr ⟨_, j₁, hchoose, Run.exec_bind_eq_ok.mpr ⟨(), _, rfl, rfl⟩⟩
  · have hunmoved := h.unmoved.next (m := .rejection u.trace.size) rfl rfl
    refine ⟨hunmoved.simplex, hunmoved.evaluations, hunmoved.rows, hunmoved.best, ?_, ?_⟩
    · rw [hevaluated.calls, h.calls, List.replicate_succ', List.flatten_concat,
        List.flatMap_append, List.append_assoc]
      rfl
    · rw [Array.toList_push, hevaluated.events, h.events, h.size_trace, List.range_succ,
        List.map_append, List.append_assoc]
      rfl

end Idled

/-- **A search at a standstill stays there**, for any number of iterations. -/
theorem exists_idled {t : Standing} {y z : Vertex} {s : Search} (hr : t.Rejects p y z)
    (hst : s.simplex.standing n = .ok t) (l : ℕ) (j : Journal σ) :
    ∃ u j', (iterates p n l s).exec j = (.ok u, j') ∧ Idled t y z s j l u j' := by
  induction l with
  | zero => exact ⟨s, j, rfl, .refl t y z s j⟩
  | succ l ih =>
    obtain ⟨u, j₁, hu, hidled⟩ := ih
    obtain ⟨j₂, hnext, hidled'⟩ := hidled.step hr hst
    exact ⟨_, j₂, exec_iterates_add.mpr ⟨u, j₁, hu, Run.exec_bind_eq_ok.mpr ⟨_, j₂, hnext, rfl⟩⟩,
      hidled'⟩

end Search

/-! ## The rest of a run -/

/-- **The run stands still** from iteration `i` on.  Before it the run is in the state `s` with the
journal `js`, and it ends with the result `r` and the journal `j`. -/
structure Standstill (p : PenaltyFunction σ) (n : ℕ) (points : List Point) (maxIter : ℕ)
    (j₀ : Journal σ) (i : ℕ) (s : Search) (js : Journal σ) (t : Standing) (y z : Vertex)
    (r : SearchResult) (j : Journal σ) : Prop where
  /-- The two vertices that are evaluated lie at the reflected and at the contracted point. -/
  reflected : t.Reaches t.worst (-reflection) y
  contracted : t.Reaches t.worst contraction z
  /-- All later states have the same simplex, and their contractions are rejected.  On the way to
  them nothing is evaluated but the two vertices, once in each iteration. -/
  states : ∀ k, i ≤ k → k ≤ maxIter → ∃ u ju, Search.Visits p n points maxIter j₀ k u ju ∧
    u.simplex = s.simplex ∧ Search.Decides p n u ju t (.rejection k) ∧
    ju.calls.toList = js.calls.toList ++
      (List.replicate (k - i) [y.sample, z.sample]).flatten.flatMap Sample.calls
  calls : j.calls.toList = js.calls.toList ++
    (List.replicate (maxIter - i) [y.sample, z.sample]).flatten.flatMap Sample.calls
  /-- The rows show the same samples, and two evaluations more from each to the next. -/
  rows : ∀ k, i ≤ k → k < maxIter → r.sample? k = some t.best.sample ∧ r.best? k = r.best? i ∧
    r.samplesAtIteration[k]? = some (s.evaluations + 2 * (k - i))
  evaluations : r.evaluations = s.evaluations + 2 * (maxIter - i)

namespace Search.Idled

variable {t : Standing} {y z : Vertex} {s u : Search} {l : ℕ}

/-- The rows that are recorded at a standstill. -/
lemma getElem?_rows (h : Idled t y z s j l u j') {k : ℕ} (hsize : s.trace.size ≤ k)
    (hk : k < s.trace.size + l) :
    u.trace.rows.toList[k]? = some ⟨t.best.sample,
      Trace.better s.trace.rows.back? t.best.sample, s.evaluations + 2 * (k - s.trace.size)⟩ := by
  have hlength : s.trace.rows.toList.length = s.trace.size := Array.length_toList
  rw [h.rows, List.getElem?_append_right (hlength ▸ hsize), hlength, List.getElem?_map,
    List.getElem?_range (by omega)]
  rfl

end Search.Idled

/-- **A rejected contraction is final.**  If the functions ignore the world and the contraction of
iteration `i` is rejected, the run stands still from then on and does not fail. -/
theorem Problem.IgnoresWorld.standstill {q : Problem σ} {o : Options} {start : Start}
    (hq : q.IgnoresWorld) (h : q.Accepts o start) {maxIter i : ℕ} {w : σ} {s : Search}
    {js : Journal σ} {t : Standing} {m : Move}
    (hs : Search.Visits h.penalty q.dimension (start.points q o) maxIter
      (start.journal q maxIter h.penalty w) i s js)
    (hdecides : Search.Decides h.penalty q.dimension s js t m)
    (hevent : m.event = .contractionRejected i) :
    ∃ y z r j, (q.run o maxIter start).execIn w = (.ok r, j) ∧
      Standstill h.penalty q.dimension (start.points q o) maxIter
        (start.journal q maxIter h.penalty w) i s js t y z r j := by
  obtain ⟨hst, j₁, hchoose⟩ := hdecides
  obtain ⟨y, z, hrejects⟩ := Standing.rejects_of_exec hq h hchoose hevent
  obtain ⟨vs, hprogress⟩ := Progress.of_visits q.dimension_pos h.length_points hs
  have hsize := hprogress.size_trace
  have hlater : ∀ k, i ≤ k → k ≤ maxIter → ∃ u ju,
      Search.Visits h.penalty q.dimension (start.points q o) maxIter
        (start.journal q maxIter h.penalty w) k u ju ∧ Search.Idled t y z s js (k - i) u ju := by
    intro k hik hk
    obtain ⟨u, ju, hu, hidled⟩ := Search.exists_idled hrejects hst (k - i) js
    have hvisits := hs.extend hu (by omega)
    rw [Nat.add_sub_cancel' hik] at hvisits
    exact ⟨u, ju, hvisits, hidled⟩
  obtain ⟨u, ju, hu, hidled⟩ := hlater maxIter hs.1 le_rfl
  have hshaped := hu.shaped q.agrees_constraint q.dimension_pos h.length_of_mem_points
    h.length_points
  obtain ⟨r, e, hread, hreport⟩ := Search.exists_exec_report hshaped ju
  have hshows := shows_of_ofTrace hread
  have hrow : ∀ k, i ≤ k → k < maxIter → u.trace.rows.toList[k]? = some ⟨t.best.sample,
      Trace.better s.trace.rows.back? t.best.sample, s.evaluations + 2 * (k - i)⟩ := by
    intro k hik hk
    have hget := hidled.getElem?_rows (k := k) (by omega) (by omega)
    rwa [hsize] at hget
  refine ⟨y, z, r, _, (h.exec_run_eq maxIter w).trans (hu.exec_search.trans hreport), ?_⟩
  refine
    { reflected := hrejects.reflected
      contracted := hrejects.contracted
      states := ?_
      calls := hidled.calls
      rows := ?_
      evaluations := hshows.evaluations_eq.trans hidled.evaluations }
  · intro k hik hk
    obtain ⟨v, jv, hv, hidled'⟩ := hlater k hik hk
    have hstanding : v.simplex.standing q.dimension = .ok t := by rwa [hidled'.simplex]
    have hindex : v.trace.size = k := by
      rw [hidled'.size_trace, hsize, Nat.add_sub_cancel' hik]
    obtain ⟨j₂, hagain, -⟩ := hrejects.exec_choose v.trace.size jv
    exact ⟨v, jv, hv, hidled'.simplex, ⟨hstanding, j₂, hindex ▸ hagain⟩, hidled'.calls⟩
  · intro k hik hk
    rw [hshows.sample?_eq, hshows.best?_eq, hshows.best?_eq, hshows.samplesAtIteration,
      List.getElem?_map, hrow k hik hk, hrow i le_rfl (hik.trans_lt hk)]
    exact ⟨rfl, rfl, rfl⟩

/-! ## A run that comes to a standstill -/

/-- A pit of no width in the middle of two terraces. -/
def terraces : Problem Unit where
  objective := .ofPoint fun x => .ok (match x with
    | [c] => if c == 0.0 then 0.0 else if -2.0 ≤ c ∧ c ≤ 2.0 then 1.0 else 2.0
    | _ => 0.0)
  x0 := square.x0
  bounds := square.bounds
  constraints := []
  x0_ne_nil := square.x0_ne_nil
  length_bounds := square.length_bounds
  agrees_objective := by decide
  agrees_constraint := squareAlone.agrees_constraint

lemma ignoresWorld_terraces : terraces.IgnoresWorld :=
  ⟨fun _ _ _ => rfl, List.forall_mem_nil _⟩

/-- A segment from the pit up to the second terrace. -/
def slope : Matrix := ⟨1, [[0.0], [3.0]], by decide⟩

lemma accepts_terraces : terraces.Accepts {} (.given slope) :=
  ⟨by decide +kernel, by decide +kernel, rfl, rfl⟩

/-- The second iteration finds the first terrace on both sides. -/
theorem standstill_terraces : ∃ s js t m,
    Search.Visits accepts_terraces.penalty 1 slope.rows 4 { world := () } 1 s js ∧
    Search.Decides accepts_terraces.penalty 1 s js t m ∧ m.event = .contractionRejected 1 ∧
    ∃ y z r j, (terraces.minimizeFrom slope 4 {}).execIn () = (.ok r, j) ∧
      Standstill accepts_terraces.penalty 1 slope.rows 4 { world := () } 1 s js t y z r j := by
  have hchecked : (match (Search.first accepts_terraces.penalty 1 slope.rows 4 >>=
      Search.iterates accepts_terraces.penalty 1 1).exec { world := () } with
    | (.ok s, js) => match s.simplex.standing 1 with
      | .ok t => match (Move.choose accepts_terraces.penalty s.trace.size t).exec js with
        | (.ok m, _) => decide (m.event = .contractionRejected 1)
        | (.error _, _) => false
      | .error _ => false
    | (.error _, _) => false) = true := by
    decide +kernel
  split at hchecked
  case h_2 => cases hchecked
  rename_i s js hstate
  split at hchecked
  case h_2 => cases hchecked
  rename_i t hst
  split at hchecked
  case h_2 => cases hchecked
  rename_i m js' hchoose
  have hvisits : Search.Visits accepts_terraces.penalty 1 slope.rows 4 { world := () } 1 s js :=
    ⟨by decide, hstate⟩
  have hevent := of_decide_eq_true hchecked
  exact ⟨s, js, t, m, hvisits, ⟨hst, js', hchoose⟩, hevent,
    ignoresWorld_terraces.standstill accepts_terraces hvisits ⟨hst, js', hchoose⟩ hevent⟩

end NelderMead
