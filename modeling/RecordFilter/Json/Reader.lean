import RecordFilter.Json.Number
import RecordFilter.Text.Leading

/-!
# Reading JSON

The grammar of RFC 8259 and nothing more: white space is space, tab, line feed and carriage
return; strings hold no raw control character and no unpaired surrogate; nothing follows the
document. Arrays and objects are nested at most `maxNesting` deep, counted from the outermost.

Each reader takes what it reads off the front of the text. Loops are bounded by a number that the
length of the whole text provides, and the reader of values recurses on the levels of nesting that
are left.

* `value_succ`: within an array or object one level less is left.
-/

namespace RecordFilter.Json

/-- The deepest nesting of arrays and objects. -/
def maxNesting : Nat := 127

/-- Takes a value off the front of the text. -/
abbrev Reader (α : Type) := List Char → Option (α × List Char)

/-- The character is JSON white space. -/
def isSpace (c : Char) : Bool := c == ' ' || c == '\t' || c == '\n' || c == '\r'

/-- The text without the white space it begins with. -/
def skipSpace (text : List Char) : List Char := text.dropWhile isSpace

/-! ## Strings -/

/-- The number that a hexadecimal digit stands for. -/
def hexDigit? (c : Char) : Option Nat :=
  if c.isDigit then some (c.toNat - '0'.toNat)
  else if 'a' ≤ c ∧ c ≤ 'f' then some (c.toNat - 'a'.toNat + 10)
  else if 'A' ≤ c ∧ c ≤ 'F' then some (c.toNat - 'A'.toNat + 10)
  else none

/-- Reads four hexadecimal digits. -/
def hexQuad? : Reader Nat
  | a :: b :: c :: d :: rest =>
    match hexDigit? a, hexDigit? b, hexDigit? c, hexDigit? d with
    | some a, some b, some c, some d => some (((a * 16 + b) * 16 + c) * 16 + d, rest)
    | _, _, _, _ => none
  | _ => none

/-- The unit is the first half of a surrogate pair. -/
def isHighSurrogate (unit : Nat) : Bool := 0xD800 ≤ unit && unit ≤ 0xDBFF

/-- The unit is the second half of a surrogate pair. -/
def isLowSurrogate (unit : Nat) : Bool := 0xDC00 ≤ unit && unit ≤ 0xDFFF

/-- Reads the character that follows `\u`: one unit, or a surrogate pair of two. -/
def unicode? : Reader Char := fun text =>
  match hexQuad? text with
  | none => none
  | some (unit, rest) =>
    if isLowSurrogate unit then none
    else if isHighSurrogate unit then
      match rest with
      | '\\' :: 'u' :: rest =>
        match hexQuad? rest with
        | some (low, rest) =>
          if isLowSurrogate low then
            some (Char.ofNat (0x10000 + (unit - 0xD800) * 0x400 + (low - 0xDC00)), rest)
          else none
        | none => none
      | _ => none
    else some (Char.ofNat unit, rest)

/-- Reads the character that follows a backslash. -/
def escaped? : Reader Char
  | '"' :: rest => some ('"', rest)
  | '\\' :: rest => some ('\\', rest)
  | '/' :: rest => some ('/', rest)
  | 'b' :: rest => some ('\x08', rest)
  | 'f' :: rest => some ('\x0c', rest)
  | 'n' :: rest => some ('\n', rest)
  | 'r' :: rest => some ('\r', rest)
  | 't' :: rest => some ('\t', rest)
  | 'u' :: rest => unicode? rest
  | _ => none

/-- Reads a string after its opening quote, behind the characters `taken` so far (the last one
first). -/
def stringAfter : Nat → List Char → Reader String
  | 0, _, _ => none
  | _ + 1, _, [] => none
  | bound + 1, taken, c :: rest =>
    if c = '"' then some (String.ofList taken.reverse, rest)
    else if c = '\\' then
      match escaped? rest with
      | some (d, rest) => stringAfter bound (d :: taken) rest
      | none => none
    else if c.toNat < 0x20 then none
    else stringAfter bound (c :: taken) rest

/-! ## Arrays and objects -/

/-- Reads the elements of an array up to its closing bracket, behind those `taken` so far (the
last one first). -/
def elementsAfter (element : Reader Json) : Nat → List Json → Reader (List Json)
  | 0, _, _ => none
  | bound + 1, taken, text =>
    match element text with
    | none => none
    | some (v, rest) =>
      match skipSpace rest with
      | ',' :: rest => elementsAfter element bound (v :: taken) rest
      | ']' :: rest => some ((v :: taken).reverse, rest)
      | _ => none

/-- Reads a name, a colon and a value. -/
def member (bound : Nat) (element : Reader Json) : Reader (String × Json) := fun text =>
  match skipSpace text with
  | '"' :: rest =>
    match stringAfter bound [] rest with
    | none => none
    | some (name, rest) =>
      match skipSpace rest with
      | ':' :: rest => (element rest).map fun (v, rest) => ((name, v), rest)
      | _ => none
  | _ => none

/-- Reads the members of an object up to its closing brace, behind those `taken` so far (the last
one first). -/
def membersAfter (one : Reader (String × Json)) :
    Nat → List (String × Json) → Reader (List (String × Json))
  | 0, _, _ => none
  | bound + 1, taken, text =>
    match one text with
    | none => none
    | some (m, rest) =>
      match skipSpace rest with
      | ',' :: rest => membersAfter one bound (m :: taken) rest
      | '\x7d' :: rest => some ((m :: taken).reverse, rest)
      | _ => none

/-- Reads an array after its opening bracket. -/
def arrayAfter (bound : Nat) (element : Reader Json) : Reader Json := fun text =>
  match skipSpace text with
  | ']' :: rest => some (.array [], rest)
  | text => (elementsAfter element bound [] text).map fun (vs, rest) => (.array vs, rest)

/-- Reads an object after its opening brace. -/
def objectAfter (bound : Nat) (element : Reader Json) : Reader Json := fun text =>
  match skipSpace text with
  | '\x7d' :: rest => some (.object [], rest)
  | text =>
    (membersAfter (member bound element) bound [] text).map fun (ms, rest) => (.object ms, rest)

/-! ## Values -/

/-- The names of the values that are written as a word. -/
def words : List (List Char × Json) :=
  [("null".toList, .null), ("true".toList, .bool true), ("false".toList, .bool false)]

/-- Reads a word. -/
def word? : Reader Json := fun text =>
  words.findSome? fun (spelling, v) => (Text.dropPrefix? spelling text).map fun rest => (v, rest)

/-- Reads a value, with a reader for arrays and one for objects after their opening mark. -/
def valueWith (bound : Nat) (arrays objects : Reader Json) : Reader Json := fun text =>
  match skipSpace text with
  | '"' :: rest => (stringAfter bound [] rest).map fun (s, rest) => (.string s, rest)
  | '[' :: rest => arrays rest
  | '\x7b' :: rest => objects rest
  | text =>
    match word? text with
    | some found => some found
    | none => (Number.read? text).map fun (n, rest) => (.number n, rest)

/-- Reads a value with at most `levels` arrays and objects around any of its parts. -/
def value (bound : Nat) : (levels : Nat) → Reader Json
  | 0 => valueWith bound (fun _ => none) (fun _ => none)
  | levels + 1 =>
    valueWith bound (fun text => arrayAfter bound (value bound levels) text)
      (fun text => objectAfter bound (value bound levels) text)

theorem value_succ (bound levels : Nat) :
    value bound (levels + 1) =
      valueWith bound (arrayAfter bound (value bound levels))
        (objectAfter bound (value bound levels)) := rfl

/-- The document that the whole text spells. -/
def parse? (text : List Char) : Option Json :=
  match value (text.length + 1) maxNesting text with
  | some (document, rest) => if (skipSpace rest).isEmpty then some document else none
  | none => none

end RecordFilter.Json
