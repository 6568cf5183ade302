import RecordFilter.Json.Reader
import RecordFilter.Fields

/-!
# Records

A record is a line of text that holds one JSON object, and its fields are the members with a
simple value. Strings and numbers stand for themselves and truth values for the words `true` and
`false`; null, arrays and objects are no values, and a member that holds one of them takes the
field away that an earlier member of the same name has given.

* `fieldsOf_append`: the last member decides what becomes of its name.
-/

namespace RecordFilter.Record

/-- The value of a field, if the member gives one. -/
def value? : Json → Option Value
  | .string text => some (.string text)
  | .number (.integer n) => some (.integer n)
  | .number (.natural n) => some (.float (.ofInt n.toNat))
  | .number (.real x) => some (.float x)
  | .bool true => some (.string "true")
  | .bool false => some (.string "false")
  | .null => none
  | .array _ => none
  | .object _ => none

/-- The fields of an object. -/
def fieldsOf (members : List (String × Json)) : Fields :=
  members.foldl (fun fields m => fields.set m.1 (value? m.2)) ∅

theorem fieldsOf_append (members : List (String × Json)) (name : String) (v : Json) :
    fieldsOf (members ++ [(name, v)]) = (fieldsOf members).set name (value? v) := by
  simp [fieldsOf]

/-- The fields of the record on the line, or none when the line does not hold a JSON object. -/
def ofLine (line : String) : Option Fields :=
  match Json.parse? line.toList with
  | some (.object members) => some (fieldsOf members)
  | _ => none

end RecordFilter.Record
