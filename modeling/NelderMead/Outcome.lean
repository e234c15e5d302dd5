/-!
# How a computation can end

Two kinds of failure are kept apart throughout the library.

* An *error* is an answer: a bad parameter, a function that reported its own failure.  Its type is
  the parameter `ε` of `Failure ε`, because each layer has its own causes.
* A `Fault` is a broken promise between parts of a computation: an index beyond the end of a list,
  two vectors of different length where one length is meant, a table with more entries than a
  machine can address.  No error message is made of it.

`entry` is the only way in which the search reads a list by position, and `cell` and `put` are those in
which it reads and overwrites a store, so every position it uses is checked.
-/

namespace NelderMead

/-- Values that do not fit together, or do not fit at all. -/
inductive Fault where
  /-- Position `index` was read in a list of `size` entries. -/
  | outOfRange (index size : Nat)
  /-- Vectors of two lengths met where one length is meant. -/
  | lengthMismatch (expected got : Nat)
  /-- A table of `count` entries was asked for. -/
  | tooManyEntries (count : Nat)
  deriving DecidableEq

/-- **Failure with causes `ε`.**  Either a cause of the layer at hand or a fault below it. -/
inductive Failure (ε : Type) where
  | error (e : ε)
  | fault (f : Fault)
  deriving DecidableEq

namespace Failure

/-- Renames the causes and keeps the faults. -/
def map {ε ε' : Type} (rename : ε → ε') : Failure ε → Failure ε'
  | .error e => .error (rename e)
  | .fault f => .fault f

end Failure

/-- The entry at position `i`, or the fault that names the position. -/
def entry {α : Type} (xs : List α) (i : Nat) : Except Fault α :=
  match xs[i]? with
  | some a => .ok a
  | none => .error (.outOfRange i xs.length)

theorem entry_eq_ok_iff {α : Type} {xs : List α} {i : Nat} {a : α} :
    entry xs i = .ok a ↔ xs[i]? = some a := by
  unfold entry
  cases xs[i]? <;> simp

/-- A position inside the list has an entry. -/
theorem entry_of_lt {α : Type} {xs : List α} {i : Nat} (h : i < xs.length) :
    entry xs i = .ok (xs.get ⟨i, h⟩) := by
  simp [entry_eq_ok_iff, h]

/-- The entry of a store at position `i`, or the fault that names the position. -/
def cell {α : Type} (xs : Array α) (i : Nat) : Except Fault α :=
  match xs[i]? with
  | some a => .ok a
  | none => .error (.outOfRange i xs.size)

theorem cell_eq_ok_iff {α : Type} {xs : Array α} {i : Nat} {a : α} :
    cell xs i = .ok a ↔ xs[i]? = some a := by
  unfold cell
  cases xs[i]? <;> simp

/-- Overwrites the entry of a store at position `i`. -/
def put {α : Type} (xs : Array α) (i : Nat) (a : α) : Except Fault (Array α) :=
  if h : i < xs.size then .ok (xs.set i a) else .error (.outOfRange i xs.size)

theorem put_eq_ok_iff {α : Type} {xs ys : Array α} {i : Nat} {a : α} :
    put xs i a = .ok ys ↔ ∃ h : i < xs.size, xs.set i a = ys := by
  unfold put
  split <;> simp [*]

/-- Two steps succeed together if the first does and the second does after it. -/
theorem bind_eq_ok_iff {ε α β : Type} {x : Except ε α} {f : α → Except ε β} {b : β} :
    (x >>= f) = .ok b ↔ ∃ a, x = .ok a ∧ f a = .ok b := by
  cases x with
  | error e => simp [bind, Except.bind]
  | ok a => simp [bind, Except.bind]

end NelderMead
