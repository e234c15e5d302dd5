/-!
# Shapes of the penalty

A violated constraint is charged the violation (`l1`) or its square (`l2`).
-/

namespace NelderMead

/-- What is charged for a violation. -/
inductive PenaltyShape where
  /-- The violation itself. -/
  | l1
  /-- The square of the violation. -/
  | l2
  deriving DecidableEq

/-- A name that names no shape. -/
structure UnknownPenalty where
  name : String
  deriving DecidableEq

/-- The error message. -/
def UnknownPenalty.message (e : UnknownPenalty) : String := "unknown penalty type: " ++ e.name

namespace PenaltyShape

instance : Inhabited PenaltyShape := ⟨l2⟩

/-- The charge for a violation. -/
def charge : PenaltyShape → Float → Float
  | l1, violation => violation
  | l2, violation => violation * violation

/-- The name of a shape, by which `ofName` knows it. -/
def name : PenaltyShape → String
  | l1 => "l1"
  | l2 => "l2"

/-- The name in descriptions of values. -/
def label : PenaltyShape → String
  | l1 => "L1"
  | l2 => "L2"

/-- The shape of a name, in letters of either case.  Only ASCII letters have a lower case here; no
other character has one that occurs in a name. -/
def ofName (name : String) : Except UnknownPenalty PenaltyShape :=
  match name.toLower with
  | "l1" => .ok l1
  | "l2" => .ok l2
  | _ => .error ⟨name⟩

end PenaltyShape

end NelderMead
