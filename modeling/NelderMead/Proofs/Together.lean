import NelderMead.Journal
import Mathlib.Data.List.Forall2
import Mathlib.Tactic.Lemma

/-!
# Computations that end together

Two computations can be compared step by step: both return, and what they return is related, or both
fail for related causes.  Whatever is put together of such steps is of this kind again.

* `Alike` — two values that may be faults.
* `Together` — how two computations end.
* `Run.Coupled` — computations that end together; `Run.Coupled.consult` makes them from calls with the
  same answer, **`Run.Coupled.bind`** and its neighbours put them together.
-/

namespace NelderMead

variable {σ τ ε ε' α β α' β' : Type}

/-! ## Values -/

/-- **Both values exist** and are related, or the same fault stands in the place of both. -/
inductive Alike (R : α → β → Prop) : Except Fault α → Except Fault β → Prop
  | ok {a : α} {b : β} (value : R a b) : Alike R (.ok a) (.ok b)
  | error (f : Fault) : Alike R (.error f) (.error f)

namespace Alike

variable {Q : α → β → Prop} {R : α' → β' → Prop}

lemma refl (c : Except Fault α) : Alike Eq c c := by
  cases c with
  | ok a => exact .ok rfl
  | error f => exact .error f

lemma bind {c : Except Fault α} {d : Except Fault β} {f : α → Except Fault α'}
    {g : β → Except Fault β'} (h : Alike Q c d) (next : ∀ a b, Q a b → Alike R (f a) (g b)) :
    Alike R (c >>= f) (d >>= g) := by
  cases h with
  | ok value => exact next _ _ value
  | error f => exact .error f

lemma mapM {γ : Type} {f : γ → Except Fault α} {g : γ → Except Fault β}
    (h : ∀ c, Alike Q (f c) (g c)) (l : List γ) :
    Alike (List.Forall₂ Q) (l.mapM f) (l.mapM g) := by
  induction l with
  | nil => exact .ok .nil
  | cons c l ih =>
    rw [List.mapM_cons, List.mapM_cons]
    refine (h c).bind fun a b hab => ih.bind fun as bs habs => ?_
    exact .ok (.cons hab habs)

lemma foldlM {γ δ : Type} {P : γ → δ → Prop} {f : α → γ → Except Fault α}
    {g : β → δ → Except Fault β} (h : ∀ {a b c d}, Q a b → P c d → Alike Q (f a c) (g b d))
    {cs : List γ} {ds : List δ} (hlists : List.Forall₂ P cs ds) {a : α} {b : β} (hab : Q a b) :
    Alike Q (cs.foldlM f a) (ds.foldlM g b) := by
  induction hlists generalizing a b with
  | nil => exact .ok hab
  | cons hcd _ ih =>
    rw [List.foldlM_cons, List.foldlM_cons]
    exact (h hab hcd).bind fun _ _ hnext => ih hnext

lemma entry {xs : List α} {ys : List β} (h : List.Forall₂ Q xs ys) (i : ℕ) :
    Alike Q (entry xs i) (entry ys i) := by
  have hlength := h.length_eq
  rcases Nat.lt_or_ge i xs.length with hi | hi
  · have hj : i < ys.length := hlength ▸ hi
    rw [entry_of_lt hi, entry_of_lt hj]
    exact .ok (h.get hi hj)
  · rw [NelderMead.entry, NelderMead.entry, List.getElem?_eq_none hi,
      List.getElem?_eq_none (hlength ▸ hi), hlength]
    exact .error _

end Alike

/-! ## Computations -/

/-- **How two computations end together**: both return values related by `R`, or both fail for
causes related by `E`, and the journals are related by `J` in any case. -/
inductive Together (J : Journal σ → Journal τ → Prop) (E : Failure ε → Failure ε' → Prop)
    (R : α → β → Prop) :
    Except (Failure ε) α × Journal σ → Except (Failure ε') β × Journal τ → Prop
  | returned {a : α} {b : β} {j : Journal σ} {j' : Journal τ} (value : R a b) (journal : J j j') :
      Together J E R (.ok a, j) (.ok b, j')
  | failed {e : Failure ε} {e' : Failure ε'} {j : Journal σ} {j' : Journal τ} (cause : E e e')
      (journal : J j j') : Together J E R (.error e, j) (.error e', j')

lemma Together.imp {J : Journal σ → Journal τ → Prop} {E : Failure ε → Failure ε' → Prop}
    {Q R : α → β → Prop} (h : ∀ a b, Q a b → R a b)
    {out : Except (Failure ε) α × Journal σ} {out' : Except (Failure ε') β × Journal τ}
    (htogether : Together J E Q out out') : Together J E R out out' := by
  cases htogether with
  | returned value journal => exact .returned (h _ _ value) journal
  | failed cause journal => exact .failed cause journal

/-- **The computations end together** whenever they begin with related journals. -/
def Run.Coupled (J : Journal σ → Journal τ → Prop) (E : Failure ε → Failure ε' → Prop)
    (R : α → β → Prop) (r : Run σ ε α) (r' : Run τ ε' β) : Prop :=
  ∀ j j', J j j' → Together J E R (r.exec j) (r'.exec j')

namespace Run.Coupled

variable {J : Journal σ → Journal τ → Prop} {E : Failure ε → Failure ε' → Prop}
  {Q : α → β → Prop} {R : α' → β' → Prop}

lemma pure {a : α} {b : β} (h : Q a b) :
    Coupled J E Q (Pure.pure a : Run σ ε α) (Pure.pure b : Run τ ε' β) :=
  fun _ _ hj => .returned h hj

lemma check (hfault : ∀ f, E (.fault f) (.fault f)) {c : Except Fault α} {d : Except Fault β}
    (h : Alike Q c d) : Coupled J E Q (Run.check c : Run σ ε α) (Run.check d : Run τ ε' β) := by
  cases h with
  | ok value => exact pure value
  | error f => exact fun _ _ hj => .failed (hfault f) hj

/-- A value that is there on one side only is taken without further ado. -/
lemma check_left {c : Except Fault α'} {a : α'} (ha : c = .ok a) {f : α' → Run σ ε α}
    {r' : Run τ ε' β} (h : Coupled J E Q (f a) r') : Coupled J E Q (Run.check c >>= f) r' := by
  intro j j' hj
  rw [exec_bind, ha, exec_check_ok]
  exact h j j' hj

lemma check_right {c : Except Fault β'} {b : β'} (hb : c = .ok b) {r : Run σ ε α}
    {f : β' → Run τ ε' β} (h : Coupled J E Q r (f b)) : Coupled J E Q r (Run.check c >>= f) := by
  intro j j' hj
  rw [exec_bind, hb, exec_check_ok]
  exact h j j' hj

/-- **Calls with the same answer** end together if the journals are related behind them as well. -/
lemma consult {t t' : Target} {x x' : Point}
    {ask : Point → StateM σ (Except (Failure EvalError) Float)}
    {ask' : Point → StateM τ (Except (Failure EvalError) Float)} {rename : EvalError → ε}
    {rename' : EvalError → ε'} (hcause : ∀ e : Failure EvalError, E (e.map rename) (e.map rename'))
    (hask : ∀ j j', J j j' → (ask x j.world).1 = (ask' x' j'.world).1 ∧ ∀ out,
      J { j with world := (ask x j.world).2, calls := j.calls.push ⟨t, x, out⟩ }
        { j' with world := (ask' x' j'.world).2, calls := j'.calls.push ⟨t', x', out⟩ }) :
    Coupled J E Eq ((Run.consult t x ask).mapError rename)
      ((Run.consult t' x' ask').mapError rename') := by
  intro j j' hj
  obtain ⟨hanswer, hjournals⟩ := hask j j' hj
  have hpush := hjournals (ask x j.world).1
  rw [Run.exec_mapError, Run.exec_consult, Run.exec_mapError, Run.exec_consult, ← hanswer]
  generalize (ask x j.world).1 = out at hpush ⊢
  cases out with
  | ok v => exact .returned rfl hpush
  | error e => exact .failed (hcause e) hpush

/-- **Computations put together** end together if their parts do. -/
theorem bind {r : Run σ ε α} {r' : Run τ ε' β} {f : α → Run σ ε α'} {f' : β → Run τ ε' β'}
    (h : Coupled J E Q r r') (next : ∀ a b, Q a b → Coupled J E R (f a) (f' b)) :
    Coupled J E R (r >>= f) (r' >>= f') := by
  intro j j' hj
  have hr := h j j' hj
  rw [exec_bind, exec_bind]
  generalize r.exec j = out at hr
  generalize r'.exec j' = out' at hr
  cases hr with
  | returned value journal => exact next _ _ value _ _ journal
  | failed cause journal => exact .failed cause journal

/-- The same branch is taken on both sides. -/
lemma ite {c d : Prop} [Decidable c] [Decidable d] (hcd : c ↔ d) {r s : Run σ ε α}
    {r' s' : Run τ ε' β} (hr : Coupled J E Q r r') (hs : Coupled J E Q s s') :
    Coupled J E Q (if c then r else s) (if d then r' else s') := by
  by_cases hc : c
  · rwa [if_pos hc, if_pos (hcd.mp hc)]
  · rwa [if_neg hc, if_neg fun hd => hc (hcd.mpr hd)]

lemma mapM {γ δ : Type} {P : γ → δ → Prop} {f : γ → Run σ ε α} {g : δ → Run τ ε' β}
    (h : ∀ c d, P c d → Coupled J E Q (f c) (g d)) {cs : List γ} {ds : List δ}
    (hlists : List.Forall₂ P cs ds) :
    Coupled J E (List.Forall₂ Q) (cs.mapM f) (ds.mapM g) := by
  induction hlists with
  | nil =>
    rw [List.mapM_nil, List.mapM_nil]
    exact pure .nil
  | cons hcd _ ih =>
    rw [List.mapM_cons, List.mapM_cons]
    refine (h _ _ hcd).bind fun a b hab => ih.bind fun as bs habs => ?_
    exact pure (.cons hab habs)

end Run.Coupled

/-! ## The same outcome -/

namespace Run

section Outcome

variable {R : α → β → Prop} {r : Run σ ε α} {r' : Run σ ε β} {j j' : Journal σ} {a : α} {b : β}

/-- What one side returns has a counterpart on the other. -/
lemma Coupled.exists_right (h : Coupled Eq Eq R r r') (ha : r.exec j = (.ok a, j')) :
    ∃ b, r'.exec j = (.ok b, j') ∧ R a b := by
  have htogether := h j j rfl
  rw [ha] at htogether
  generalize r'.exec j = out at htogether ⊢
  cases htogether with
  | returned value journal => exact ⟨_, by rw [journal], value⟩

lemma Coupled.exists_left (h : Coupled Eq Eq R r r') (hb : r'.exec j = (.ok b, j')) :
    ∃ a, r.exec j = (.ok a, j') ∧ R a b := by
  have htogether := h j j rfl
  rw [hb] at htogether
  generalize r.exec j = out at htogether ⊢
  cases htogether with
  | returned value journal => exact ⟨_, by rw [journal], value⟩

/-- Both sides fail for one cause. -/
lemma Coupled.error_eq (h : Coupled Eq Eq R r r') {e : Failure ε}
    (he : (r.exec j).1 = .error e) : (r'.exec j).1 = .error e := by
  have htogether := h j j rfl
  generalize r.exec j = out at htogether he
  generalize r'.exec j = out' at htogether ⊢
  cases htogether with
  | returned value journal => cases he
  | failed cause journal =>
    obtain rfl := Except.error.inj he
    rw [← cause]

end Outcome

variable {r r' : Run σ ε α}

lemma Coupled.refl (r : Run σ ε α) : Coupled Eq Eq Eq r r := by
  rintro j _ rfl
  rcases r.exec j with ⟨e | a, j'⟩
  · exact .failed rfl rfl
  · exact .returned rfl rfl

/-- A computation ends together with itself, and what it returns is as it always is. -/
lemma coupled_self {Q : α → Prop} (h : ∀ j a j', r.exec j = (.ok a, j') → Q a) :
    Coupled Eq Eq (fun a b => a = b ∧ Q a) r r := by
  rintro j _ rfl
  rcases hr : r.exec j with ⟨e | a, j'⟩
  · exact .failed rfl rfl
  · exact .returned ⟨rfl, h j a j' hr⟩ rfl

/-- Computations that agree step by step are the same. -/
lemma Coupled.exec_eq (h : Coupled Eq Eq Eq r r') (j : Journal σ) : r.exec j = r'.exec j := by
  have htogether := h j j rfl
  generalize r.exec j = out at htogether ⊢
  generalize r'.exec j = out' at htogether ⊢
  cases htogether with
  | returned value journal => rw [value, journal]
  | failed cause journal => rw [cause, journal]

end Run

end NelderMead
