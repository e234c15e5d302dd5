import NelderMead.Journal

/-!
# Black boxes

A black box is a function known only through its values.  It may fail, and it may keep a state in
the caller's `world`; what it returns at a point can then depend on what was evaluated before.

* `BlackBox.ofState` — from a function that cannot fail.
* `BlackBox.ofPoint` — from a function of the point alone.
* `BlackBox.DependsOnPoint` — that a black box is such a function.
* `BlackBox.observe` — the value at a point as that of an objective, written into the journal.
-/

namespace NelderMead

/-- A function of a point that acts on the world `σ`. -/
structure BlackBox (σ : Type) where
  /-- The dimension of the points it takes, where that was declared. -/
  dimension : Option Nat := none
  call : Point → StateM σ (Except EvalError Float)

namespace BlackBox

variable {σ : Type}

/-- A function that cannot fail. -/
def ofState (f : Point → StateM σ Float) : BlackBox σ where
  call x := do return .ok (← f x)

/-- A function of the point alone. -/
def ofPoint (f : Point → Except EvalError Float) : BlackBox σ where
  call x := return f x

/-- Declares the dimension. -/
def withDimension (f : BlackBox σ) (n : Nat) : BlackBox σ := { f with dimension := some n }

/-- Evaluates the black box as the objective of a problem. -/
def observe (f : BlackBox σ) (x : Point) : Run σ EvalError Float :=
  Run.consult .objective x fun x => do return (← f.call x).mapError .error

/-- The black box computes `value` and leaves the world alone. -/
def DependsOnPoint (f : BlackBox σ) (value : Point → Except EvalError Float) : Prop :=
  ∀ x w, (f.call x).run w = (value x, w)

end BlackBox

end NelderMead
