import RecordFilter.Settings.Layer
import RecordFilter.Text.Leading

/-!
# Settings from the environment

An environment variable is a setting when its name, in lower case, begins with `booleval_`; the
rest of the name is the key. Its text is a truth value, an integer or a number when it can be read
as one, in this order.
-/

namespace RecordFilter.Settings.Environment

/-- What the names of settings begin with, in lower case. -/
def namePrefix : List Char := "booleval_".toList

/-- The value that the text of a variable is recognised as. -/
def valueOf (text : String) : RawValue :=
  let letters := text.toList
  let word := letters.map Char.toLower
  if word = "true".toList then .bool true
  else if word = "false".toList then .bool false
  else match Numeral.integer64? letters with
    | some n => .integer n
    | none =>
      match Numeral.binary64? letters with
      | some x => .real x
      | none => .text text

/-- The lower case of a character, as far as it can be found in a key that is a path: of the
characters that are not ASCII, only the Kelvin sign and the capital I with a dot have an ASCII
letter in theirs. -/
def lowerCase (c : Char) : List Char :=
  if c = '\u212a' then ['k'] else if c = '\u0130' then ['i', '\u0307'] else [c.toLower]

/-- The key of the setting that the variable is, if it is one. -/
def key? (name : String) : Option String :=
  (Text.dropPrefix? namePrefix (name.toList.flatMap lowerCase)).map String.ofList

/-- The settings among the variables. -/
def settings (environment : List (String × String)) : Layer :=
  .ofKeys (environment.filterMap fun (name, text) => (key? name).map fun key => (key, valueOf text))

end RecordFilter.Settings.Environment
