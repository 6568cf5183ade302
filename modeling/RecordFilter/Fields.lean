import Std.Data.TreeMap
import RecordFilter.Value

/-!
# Fields

What a condition is evaluated on: the values of named fields, each name at most once, in the order
of the names.

* `lookup_set`: setting a field changes that field and no other.
-/

namespace RecordFilter

/-- The named values of a record. -/
abbrev Fields := Std.TreeMap String Value

namespace Fields

/-- The value of the field, if there is one. -/
def lookup (fields : Fields) (name : String) : Option Value := fields[name]?

/-- The field gets a value, or goes away. -/
def set (fields : Fields) (name : String) : Option Value → Fields
  | some v => fields.insert name v
  | none => fields.erase name

theorem lookup_set (fields : Fields) (name other : String) (v : Option Value) :
    (fields.set name v).lookup other = if name = other then v else fields.lookup other := by
  cases v <;> simp [set, lookup, Std.TreeMap.getElem?_insert, Std.TreeMap.getElem?_erase]

end Fields

end RecordFilter
