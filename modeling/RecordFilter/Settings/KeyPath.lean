import RecordFilter.Numeral
import RecordFilter.Settings.RawValue

/-!
# Keys as paths

A key may lead into a value: `name.part` is the part of a table, and `name[2]` an element of a list.
What is given under such a key gives its root a value that has parts. A key that is not written
like a path stands for itself.
-/

namespace RecordFilter.Settings.KeyPath

/-- The characters of names in a path: ASCII letters and digits, the underscore and the dash. -/
def isNameChar (c : Char) : Bool := c.isAlphanum || c == '_' || c == '-'

/-- The text without the spaces and tabs it begins with. -/
def skipSpace (text : List Char) : List Char := text.dropWhile fun c => c == ' ' || c == '\t'

/-- Reads an index after its bracket: an integer of 64 bits without a plus sign, and the other
bracket. -/
def afterIndex? (text : List Char) : Option (List Char) :=
  let body := skipSpace text
  let digits := Numeral.digits (if body.head? = some '-' then body.tail else body)
  let spelled := if body.head? = some '-' then '-' :: digits else digits
  match Numeral.integer64? spelled, skipSpace (body.drop spelled.length) with
  | some _, ']' :: rest => some rest
  | _, _ => none

/-- The text is made of steps into a value: a point with a name, or an index in brackets. -/
def isSteps : Nat → List Char → Bool
  | 0, _ => false
  | _ + 1, [] => true
  | bound + 1, c :: rest =>
    if c = '.' then
      let name := rest.takeWhile isNameChar
      !name.isEmpty && isSteps bound (rest.drop name.length)
    else if c = '[' then
      match afterIndex? rest with
      | some rest => isSteps bound rest
      | none => false
    else false

/-- The root of a key that is written like a path. -/
def root? (key : List Char) : Option (List Char) :=
  let name := key.takeWhile isNameChar
  let steps := key.drop name.length
  if !name.isEmpty && isSteps (steps.length + 1) steps then some name else none

/-- The name and the value that are given under a key. -/
def place (key : String) (value : RawValue) : String × RawValue :=
  match root? key.toList with
  | some name => if name = key.toList then (key, value) else (String.ofList name, .composite)
  | none => (key, value)

end RecordFilter.Settings.KeyPath
