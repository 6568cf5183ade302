import RecordFilter.Condition.Basic
import RecordFilter.Fields

/-!
# Evaluating conditions

A relation holds when the record has the field and its value is to the literal as the comparison
says. A relation on a field that the record does not have is false, whatever its comparison.

* `holds_of_lookup_none`: a missing field makes a relation false;
* `holds_join`: a pair of joined conditions is evaluated through its connective.
-/

namespace RecordFilter.Condition

/-- The condition is true of the record. -/
def holds : Condition → Fields → Bool
  | .relation comparison field literal, fields =>
    match fields.lookup field with
    | none => false
    | some v => comparison.holds (v.compare literal)
  | .join .and l r, fields => l.holds fields && r.holds fields
  | .join .or l r, fields => l.holds fields || r.holds fields

theorem holds_of_lookup_none {fields : Fields} {field : String}
    (h : fields.lookup field = none) (c : Comparison) (v : Value) :
    holds (.relation c field v) fields = false := by
  simp [holds, h]

theorem holds_join (c : Connective) (l r : Condition) (fields : Fields) :
    holds (.join c l r) fields = c.apply (l.holds fields) (r.holds fields) := by
  cases c <;> rfl

end RecordFilter.Condition
