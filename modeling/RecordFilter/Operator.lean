/-!
# Operators

The connectives that join conditions and the comparisons that relate a field to a literal.

* `holds_neq`: "not equal" is the negation of "equal", so it also holds of values that have no
  order between them.
-/

namespace RecordFilter

/-- A connective of two conditions. -/
inductive Connective where
  | and
  | or
  deriving DecidableEq

/-- A comparison of a field's value with a literal. -/
inductive Comparison where
  | eq
  | neq
  | gt
  | lt
  | geq
  | leq
  deriving DecidableEq

namespace Connective

/-- The word for the connective. -/
def name : Connective → String
  | .and => "and"
  | .or => "or"

/-- The connective of two truth values. -/
def apply : Connective → Bool → Bool → Bool
  | .and, a, b => a && b
  | .or, a, b => a || b

end Connective

namespace Comparison

/-- The word for the comparison. -/
def name : Comparison → String
  | .eq => "eq"
  | .neq => "neq"
  | .gt => "gt"
  | .lt => "lt"
  | .geq => "geq"
  | .leq => "leq"

/-- Whether the comparison holds of two values that are in the given order, or in none. -/
def holds : Comparison → Option Ordering → Bool
  | .eq, order => order == some .eq
  | .neq, order => order != some .eq
  | .gt, order => order == some .gt
  | .lt, order => order == some .lt
  | .geq, order => order == some .gt || order == some .eq
  | .leq, order => order == some .lt || order == some .eq

theorem holds_neq (order : Option Ordering) : holds .neq order = !holds .eq order := by
  simp [holds, bne]

end Comparison

end RecordFilter
