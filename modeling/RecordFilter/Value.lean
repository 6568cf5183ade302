import RecordFilter.Decimal.Layout
import RecordFilter.Operator

/-!
# Values

What a literal of an expression and a field of a record hold: a string, a 64-bit integer or a
binary64 number. Strings are ordered by their characters and never compare with numbers. An
integer and a floating-point number compare after the integer has been rounded to the nearest
floating-point number.

* `equals_iff_compare`: two values are equal when their comparison says so.
-/

namespace RecordFilter

/-- A literal of an expression, or the value of a field. -/
inductive Value where
  | string (text : String)
  | integer (n : Int64)
  | float (x : Binary64)
  deriving DecidableEq

namespace Value

/-- The order of two values, if they have one. -/
def compare : Value → Value → Option Ordering
  | .string a, .string b => some (Ord.compare a b)
  | .integer a, .integer b => some (Ord.compare a.toInt b.toInt)
  | .float x, .float y => x.compare y
  | .integer a, .float y => (Binary64.ofInt a.toInt).compare y
  | .float x, .integer b => x.compare (Binary64.ofInt b.toInt)
  | .string _, _ => none
  | _, .string _ => none

/-- The values compare as equal: `1` equals `1.0`, both zeros are equal, and "not a number" equals
nothing. -/
def equals (a b : Value) : Bool := a.compare b == some .eq

/-- The word for the kind of value. -/
def kind : Value → String
  | .string _ => "string"
  | .integer _ => "integer"
  | .float _ => "float"

/-- The string between quotes. Quoted text has no escapes, so the marks are double quotes unless
the string holds one. -/
def quote (text : String) : String :=
  if '"' ∈ text.toList then String.ofList ('\'' :: text.toList ++ ['\''])
  else String.ofList ('"' :: text.toList ++ ['"'])

/-- The literal as an expression spells it. -/
def text : Value → String
  | .string s => quote s
  | .integer n => String.ofList (Numeral.ofInt n.toInt)
  | .float x => x.text .literal

/-- The number that a word spells, if it begins like one: after a sign and a point it goes on with
a digit. It is an integer when it has neither point nor exponent and fits into 64 bits, else a
floating-point number, which has to be finite. -/
def ofNumeral? (word : List Char) : Option Value :=
  let unsigned := (Numeral.splitSign word).2
  let body := if unsigned.head? = some '.' then unsigned.tail else unsigned
  if (body.head?.map Char.isDigit).getD false then
    match Numeral.integer64? word with
    | some n => some (.integer n)
    | none =>
      match Numeral.decimal? word with
      | some x => if x.isFinite then some (.float x) else none
      | none => none
  else none

theorem equals_iff_compare (a b : Value) : a.equals b = true ↔ a.compare b = some .eq := by
  simp [equals]

end Value

end RecordFilter
