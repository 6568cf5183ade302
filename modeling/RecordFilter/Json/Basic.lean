import RecordFilter.Binary64.Basic

/-!
# JSON documents

A JSON text as data. The members of an object stand in the order of the text, and a name may occur
more than once. A number is an integer when it is written as one and fits into 64 bits, with a sign
bit or without.
-/

namespace RecordFilter

/-- A JSON number. -/
inductive Json.Number where
  | integer (n : Int64)
  /-- A natural number that is too large for the sign bit. -/
  | natural (n : UInt64)
  | real (x : Binary64)
  deriving DecidableEq

/-- A JSON document. -/
inductive Json where
  | null
  | bool (b : Bool)
  | number (n : Json.Number)
  | string (text : String)
  | array (elements : List Json)
  | object (members : List (String × Json))

end RecordFilter
