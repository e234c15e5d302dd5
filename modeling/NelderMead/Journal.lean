import NelderMead.Error
import NelderMead.Event
import NelderMead.Point

/-!
# Evaluations and their journal

The functions to be minimised belong to the caller and may keep a state of their own, a `world` of
some type `σ` about which nothing is known.  A computation that evaluates them carries a journal:
the world, every evaluation so far with its outcome, and the events so far.  The journal is kept
when the computation fails, so that it tells what was evaluated up to the failure.

* `Journal` — the world and the two logs.
* `Run σ ε α` — a computation that ends in a value of `α`, a cause of `ε` or a fault.
* `Run.consult` — one evaluation, written down.
* `Run.tell` — one event, written down.
* `Run.exec` — what a computation makes of a journal; `exec_bind` and its neighbours say how the
  computations above are put together.
-/

namespace NelderMead

/-- Which function of a problem is meant. -/
inductive Target where
  | objective
  | constraint (index : Nat)
  deriving DecidableEq

/-- One evaluation: what was evaluated, where, and what came of it. -/
structure Call where
  target : Target
  point : Point
  outcome : Except (Failure EvalError) Float

/-- The state of the caller's functions and what was done so far. -/
structure Journal (σ : Type) where
  world : σ
  calls : Array Call := #[]
  events : Array Event := #[]

/-- A computation that may evaluate functions.  The journal survives a failure. -/
abbrev Run (σ ε α : Type) : Type := ExceptT (Failure ε) (StateM (Journal σ)) α

namespace Run

variable {σ ε ε' α : Type}

/-- Fails with a cause. -/
def fail (e : ε) : Run σ ε α := throw (.error e)

/-- A value that may be an error. -/
def ofExcept : Except ε α → Run σ ε α
  | .ok a => pure a
  | .error e => fail e

/-- A value that may be a fault. -/
def check : Except Fault α → Run σ ε α
  | .ok a => pure a
  | .error f => throw (.fault f)

/-- Renames the causes. -/
def mapError (rename : ε → ε') (r : Run σ ε α) : Run σ ε' α :=
  ExceptT.adapt (Failure.map rename) r

/-- Writes an event down. -/
def tell (e : Event) : Run σ ε Unit :=
  modify fun j => { j with events := j.events.push e }

/-- **One evaluation.**  Lets `f` act on the world and writes down what came of it. -/
def consult (target : Target) (point : Point)
    (f : Point → StateM σ (Except (Failure EvalError) Float)) : Run σ EvalError Float :=
  ExceptT.mk fun j =>
    let (outcome, world) := (f point).run j.world
    (outcome, { j with world, calls := j.calls.push ⟨target, point, outcome⟩ })

/-! ## What a computation makes of a journal -/

/-- The outcome of a computation that begins with the journal `j`, and the journal at its end. -/
def exec (r : Run σ ε α) (j : Journal σ) : Except (Failure ε) α × Journal σ :=
  Id.run (StateT.run (ExceptT.run r) j)

/-- A computation that begins with nothing done yet. -/
def execIn (r : Run σ ε α) (world : σ) : Except (Failure ε) α × Journal σ := r.exec { world }

variable {β : Type}

@[simp] theorem exec_pure (a : α) (j : Journal σ) : (pure a : Run σ ε α).exec j = (.ok a, j) := rfl

@[simp] theorem exec_fail (e : ε) (j : Journal σ) :
    (fail e : Run σ ε α).exec j = (.error (.error e), j) := rfl

@[simp] theorem exec_tell (e : Event) (j : Journal σ) :
    (tell e : Run σ ε Unit).exec j = (.ok (), { j with events := j.events.push e }) := rfl

@[simp] theorem exec_check_ok (a : α) (j : Journal σ) :
    (check (.ok a) : Run σ ε α).exec j = (.ok a, j) := rfl

@[simp] theorem exec_check_error (f : Fault) (j : Journal σ) :
    (check (.error f) : Run σ ε α).exec j = (.error (.fault f), j) := rfl

/-- A computation goes on from the journal that the one before it left, unless that one failed. -/
theorem exec_bind (r : Run σ ε α) (f : α → Run σ ε β) (j : Journal σ) :
    (r >>= f).exec j = match r.exec j with
      | (.ok a, j') => (f a).exec j'
      | (.error e, j') => (.error e, j') := by
  unfold exec ExceptT.run
  simp only [bind, ExceptT.bind, ExceptT.mk, StateT.run, StateT.bind, ExceptT.bindCont]
  cases r j with
  | mk outcome j' => cases outcome <;> rfl

/-- Renaming the causes does nothing to the journal. -/
theorem exec_mapError (rename : ε → ε') (r : Run σ ε α) (j : Journal σ) :
    (mapError rename r).exec j = ((r.exec j).1.mapError (Failure.map rename), (r.exec j).2) := rfl

/-- An evaluation adds one call to the journal, whatever comes of it. -/
theorem exec_consult (target : Target) (point : Point)
    (f : Point → StateM σ (Except (Failure EvalError) Float)) (j : Journal σ) :
    (consult target point f).exec j =
      ((f point j.world).1, { j with
        world := (f point j.world).2,
        calls := j.calls.push ⟨target, point, (f point j.world).1⟩ }) := rfl

end Run

end NelderMead
