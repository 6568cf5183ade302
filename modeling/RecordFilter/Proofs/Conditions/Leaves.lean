import Mathlib
import RecordFilter.Condition.Basic

/-!
# A condition from left to right

The relations of a condition, the connectives between them, and the fields that the relations name,
in the order in which an expression has them.

* `leaves`, `connectives`: the tree without its shape;
* `names_join`: the fields of a joined condition are those of its two parts.
-/

namespace RecordFilter.Condition

/-- The relations from left to right, each with its comparison, its field and its literal. -/
def leaves : Condition → List (Comparison × String × Value)
  | .relation c field literal => [(c, field, literal)]
  | .join _ l r => l.leaves ++ r.leaves

/-- The connectives from left to right. -/
def connectives : Condition → List Connective
  | .relation _ _ _ => []
  | .join c l r => l.connectives ++ c :: r.connectives

/-- The names of the fields that the relations ask for, from left to right. -/
def names (c : Condition) : List String := c.leaves.map fun l => l.2.1

@[simp] theorem names_relation (o : Comparison) (field : String) (literal : Value) :
    names (.relation o field literal) = [field] := rfl

@[simp] theorem names_join (c : Connective) (l r : Condition) :
    names (.join c l r) = l.names ++ r.names := List.map_append

end RecordFilter.Condition
