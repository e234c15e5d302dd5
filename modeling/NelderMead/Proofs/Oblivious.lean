import NelderMead.Proofs.Coupling

/-!
# Events decide nothing

A search writes events down and never reads them.  From two journals that differ in their events
alone it comes to the same outcome by the same calls, and leaves journals that differ in their
events alone.

* `Journal.SameCalls` — that two journals differ at most in their events.
* `Run.Oblivious` — that a computation never reads events: it is coupled with itself.
* `Mirror.self` — a search corresponds to itself.
* **`oblivious_search`** — a search never reads events.
-/

namespace NelderMead

variable {σ : Type}

/-- **The journals differ in their events** at most. -/
structure Journal.SameCalls (j j' : Journal σ) : Prop where
  world : j.world = j'.world
  calls : j.calls = j'.calls

/-! ## Computations that never read events -/

namespace Run

variable {ε α : Type}

/-- **The computation never reads events.** -/
def Oblivious (r : Run σ ε α) : Prop :=
  ∀ j j' : Journal σ, j.SameCalls j' →
    (r.exec j).1 = (r.exec j').1 ∧ (r.exec j).2.SameCalls (r.exec j').2

lemma Oblivious.of_coupled {r : Run σ ε α} (h : Coupled Journal.SameCalls Eq Eq r r) :
    r.Oblivious := by
  intro j j' hj
  have hr := h j j' hj
  generalize r.exec j = out at hr ⊢
  generalize r.exec j' = out' at hr ⊢
  cases hr with
  | returned value journal => exact ⟨congrArg Except.ok value, journal⟩
  | failed cause journal => exact ⟨congrArg Except.error cause, journal⟩

/-- A call finds the same world on both sides. -/
lemma coupled_call (t : Target) (x : Point)
    (ask : Point → StateM σ (Except (Failure EvalError) Float)) (rename : EvalError → ε) :
    Coupled Journal.SameCalls Eq Eq ((consult t x ask).mapError rename)
      ((consult t x ask).mapError rename) := by
  refine .consult (fun _ => rfl) ?_
  intro j j' hj
  rw [hj.world, hj.calls]
  exact ⟨rfl, fun _ => ⟨rfl, rfl⟩⟩

end Run

/-! ## Searches -/

variable (p : PenaltyFunction σ)

lemma coupled_constraintsFrom_self (x : Point) (i : ℕ) (cs : List (Constraint σ)) :
    Run.Coupled Journal.SameCalls Eq Eq (PenaltyFunction.constraintsFrom x i cs)
      (PenaltyFunction.constraintsFrom x i cs) := by
  induction cs generalizing i with
  | nil => exact .pure rfl
  | cons c cs ih =>
    refine (Run.coupled_call _ x c.evaluate _).bind ?_
    rintro g _ rfl
    refine (ih (i + 1)).bind ?_
    rintro gs _ rfl
    exact .pure rfl

/-- **A search corresponds to itself**, whatever its events. -/
def Mirror.self (n : ℕ) : Mirror p p n where
  points := Eq
  vertices := Eq
  traces := Eq
  causes := Eq
  journals := Journal.SameCalls
  point := congrArg Vertex.point
  compare := by
    rintro u _ v _ rfl rfl
    exact ⟨.rfl, .rfl, rfl, rfl⟩
  toward := by
    rintro c _ t _ rfl rfl k
    exact .refl _
  mean := by
    intro ps ps' h
    obtain rfl : ps = ps' := List.forall₂_eq_eq_eq ▸ h
    exact .refl _
  evaluate := by
    rintro x _ rfl
    have hfound : Run.Coupled Journal.SameCalls Eq Eq (p.evaluate x) (p.evaluate x) := by
      refine (Run.coupled_call .objective x _ _).bind ?_
      rintro f _ rfl
      refine (coupled_constraintsFrom_self x 0 p.constraints).bind ?_
      rintro g _ rfl
      exact .pure rfl
    refine hfound.bind ?_
    rintro found _ rfl
    exact .pure rfl
  empty := rfl
  record := by
    rintro t _ v _ rfl rfl evaluations
    rfl
  told := fun h _ _ => ⟨h.world, h.calls⟩
  fault := fun _ => rfl

lemma Mirror.States.eq_of_self {n : ℕ} {s s' : Search} (h : (Mirror.self p n).States s s') :
    s = s' := by
  have hsimplex : List.Forall₂ Eq s.simplex s'.simplex := h.simplex
  have htrace : s.trace = s'.trace := h.trace
  rw [List.forall₂_eq_eq_eq] at hsimplex
  cases s
  cases s'
  rw [Search.mk.injEq]
  exact ⟨hsimplex, h.evaluations, htrace⟩

/-- **A search never reads events.** -/
theorem oblivious_search (n : ℕ) (points : List Point) (maxIter : ℕ) :
    (search p n points maxIter).Oblivious := by
  have hpoints : List.Forall₂ (Mirror.self p n).points points points :=
    List.forall₂_same.mpr fun _ _ => rfl
  refine .of_coupled ?_
  by_cases hfits : Trace.Fits n p.constraintCount maxIter
  · rw [Search.search_of_fits hfits]
    refine ((Mirror.self p n).explore hpoints maxIter).bind ?_
    rintro s s' hstates
    obtain rfl := hstates.eq_of_self
    refine (Run.Coupled.check (fun _ => rfl) (.refl _)).bind ?_
    rintro r _ rfl
    refine (Run.Coupled.check (fun _ => rfl) (.refl _)).bind ?_
    rintro best _ rfl
    refine ((Mirror.self p n).tell _ _).bind fun _ _ _ => ?_
    exact .pure rfl
  · rw [search_eq]
    refine ((Mirror.self p n).mapM_evaluate hpoints).bind ?_
    rintro vs vs' - j j' hj
    rw [Search.goOn_of_not_fits hfits, Search.goOn_of_not_fits hfits]
    exact .failed rfl hj

end NelderMead
