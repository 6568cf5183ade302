import RecordFilter.Value

/-!
# Conditions

A condition on a record is a relation between a field and a literal, or two conditions joined by a
connective. Its text is fully parenthesised, so that the shape of the tree can be read off.

* `depth_le_relations`: a condition is at most as high as it has relations.
-/

namespace RecordFilter

/-- A condition on a record. -/
inductive Condition where
  | relation (comparison : Comparison) (field : String) (literal : Value)
  | join (connective : Connective) (left right : Condition)
  deriving DecidableEq

namespace Condition

/-- The number of relations. -/
def relations : Condition → Nat
  | .relation _ _ _ => 1
  | .join _ l r => l.relations + r.relations

/-- The height of the tree; a relation has height one. -/
def depth : Condition → Nat
  | .relation _ _ _ => 1
  | .join _ l r => 1 + max l.depth r.depth

/-- The condition as an expression, with parentheses around each pair of joined conditions. -/
def text : Condition → String
  | .relation c field literal => field ++ " " ++ c.name ++ " " ++ literal.text
  | .join c l r => "(" ++ l.text ++ " " ++ c.name ++ " " ++ r.text ++ ")"

/-- The conditions have the same shape, operators and fields, and their literals are equal as
values: `a eq 1` and `a eq 1.0` are equal in this sense. -/
def equals : Condition → Condition → Bool
  | .relation c f v, .relation c' f' v' => c == c' && f == f' && v.equals v'
  | .join c l r, .join c' l' r' => c == c' && l.equals l' && r.equals r'
  | _, _ => false

theorem relations_pos : ∀ c : Condition, 0 < c.relations
  | .relation _ _ _ => Nat.one_pos
  | .join _ l r => by
    have := relations_pos l
    simp only [relations]
    omega

theorem depth_le_relations : ∀ c : Condition, c.depth ≤ c.relations
  | .relation _ _ _ => Nat.le_refl 1
  | .join _ l r => by
    have hl := depth_le_relations l
    have hr := depth_le_relations r
    have hl' := relations_pos l
    have hr' := relations_pos r
    simp only [depth, relations]
    omega

end Condition

end RecordFilter
