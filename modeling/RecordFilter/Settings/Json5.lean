import RecordFilter.Json.Reader
import RecordFilter.Settings.Layer
import RecordFilter.Text.Names

/-!
# Settings written in JSON5

The settings are the members of an object. Beside what JSON allows there are comments, names without
quotes, strings between single quotes that go on behind a backslash at the end of a line,
hexadecimal integers, numbers with a plus sign or without digits before or behind the point, names
for infinity and "not a number", and a comma behind the last member or element. An integer needs a
sign bit: one that fits into 64 bits only without it is refused, while larger ones become numbers of
the nearest size.
-/

namespace RecordFilter.Settings.Json5

/-- Takes a value off the front of the text. -/
abbrev Reader (α : Type) := List Char → Option (α × List Char)

/-! ## Blanks -/

/-- The character ends a line. -/
def endsLine (c : Char) : Bool :=
  c == '\n' || c == '\r' || c == '\u2028' || c == '\u2029'

/-- The character may stand between two parts. -/
def isSpace (c : Char) : Bool :=
  let n := c.toNat
  endsLine c || c == ' ' || c == '\t' || n == 0x0B || n == 0x0C || n == 0xA0 || n == 0x1680 ||
    (0x2000 ≤ n && n ≤ 0x200A) || n == 0x202F || n == 0x205F || n == 0x3000 || n == 0xFEFF

/-- The text after the end of a comment that goes over several lines. -/
def afterStar? : List Char → Option (List Char)
  | [] => none
  | '*' :: '/' :: rest => some rest
  | _ :: rest => afterStar? rest

/-- The text without the blanks and comments it begins with. -/
def skipBlanks : Nat → List Char → List Char
  | 0, text => text
  | bound + 1, text =>
    match text.dropWhile isSpace with
    | '/' :: '/' :: rest => skipBlanks bound (rest.dropWhile fun c => !endsLine c)
    | '/' :: '*' :: rest =>
      match afterStar? rest with
      | some after => skipBlanks bound after
      | none => '/' :: '*' :: rest
    | rest => rest

/-- The text without the blanks and comments it begins with. -/
def skip (text : List Char) : List Char := skipBlanks (text.length + 1) text

/-! ## Strings and names -/

/-- The character that a letter after a backslash stands for. -/
def escapeLetter : Char → Char
  | 'b' => '\x08'
  | 'f' => '\x0c'
  | 'n' => '\n'
  | 'r' => '\r'
  | 't' => '\t'
  | 'v' => '\x0b'
  | '0' => '\x00'
  | c => c

/-- Reads what follows a backslash, which may stand for nothing. No digit follows a zero. -/
def escape? : Reader (List Char)
  | [] => none
  | 'u' :: rest => (Json.unicode? rest).map fun (c, rest) => ([c], rest)
  | 'x' :: a :: b :: rest =>
    match Json.hexDigit? a, Json.hexDigit? b with
    | some a, some b => some ([Char.ofNat (a * 16 + b)], rest)
    | _, _ => none
  | '\r' :: '\n' :: rest => some ([], rest)
  | c :: rest =>
    if endsLine c then some ([], rest)
    else if c = 'x' ∨ ('1' ≤ c ∧ c ≤ '9') then none
    else if c = '0' ∧ (rest.head?.map Char.isDigit).getD false then none
    else some ([escapeLetter c], rest)

/-- Reads a string after its opening quote, behind the characters `taken` so far (the last one
first). -/
def stringAfter (quote : Char) : Nat → List Char → Reader String
  | 0, _, _ => none
  | _ + 1, _, [] => none
  | bound + 1, taken, c :: rest =>
    if c = quote then some (String.ofList taken.reverse, rest)
    else if c = '\\' then
      match escape? rest with
      | some (cs, rest) => stringAfter quote bound (cs.reverse ++ taken) rest
      | none => none
    else if c = '\n' ∨ c = '\r' then none
    else stringAfter quote bound (c :: taken) rest

/-- Reads a string at its opening quote. -/
def string? : Reader String
  | [] => none
  | quote :: rest =>
    if quote = '"' ∨ quote = '\'' then stringAfter quote (rest.length + 1) [] rest else none

/-- The character begins a name. -/
def isFirst (c : Char) : Bool := c == '$' || c == '_' || Text.isLetter c

/-- The character goes on with a name. -/
def isPart (c : Char) : Bool :=
  isFirst c || Text.isNamePart c || c == '\u200c' || c == '\u200d'

/-- Reads the rest of a name behind the characters `taken` (the last one first). A character may be
written as its code point. -/
def nameAfter : Nat → List Char → Reader String
  | 0, _, _ => none
  | _ + 1, taken, [] => some (String.ofList taken.reverse, [])
  | bound + 1, taken, c :: rest =>
    if c = '\\' then
      match rest with
      | 'u' :: rest => (Json.unicode? rest).bind fun (c, rest) => nameAfter bound (c :: taken) rest
      | _ => none
    else if if taken.isEmpty then isFirst c else isPart c then nameAfter bound (c :: taken) rest
    else some (String.ofList taken.reverse, c :: rest)

/-- Reads the key of a member. -/
def key? : Reader String := fun text =>
  match text with
  | [] => none
  | c :: _ =>
    if c = '"' ∨ c = '\'' then string? text
    else (nameAfter (text.length + 1) [] text).filter fun (name, _) => !name.isEmpty

/-! ## Numbers -/

/-- The number of hexadecimal digits. -/
def hexadecimal? (digits : List Char) : Option Nat :=
  if digits.isEmpty then none
  else (digits.mapM Json.hexDigit?).map fun ds => ds.foldl (fun n d => n * 16 + d) 0

/-- The number that the text spells or names without a sign. -/
def real? (negative : Bool) (text : List Char) : Option RawValue :=
  if text = "Infinity".toList then some (.real (.signed negative .infinity))
  else if text = "NaN".toList then some (.real .nan)
  else (Numeral.unsigned? text).map fun d => .real (d.toBinary64 negative)

/-- The digits before a point begin with a needless zero. -/
def hasNeedlessZero : List Char → Bool
  | '0' :: c :: _ => c.isDigit
  | _ => false

/-- The integer in hexadecimal digits, if it has 64 bits with the sign. -/
def ofHexadecimal? (negative : Bool) (digits : List Char) : Option RawValue :=
  ((hexadecimal? digits).bind fun n => Numeral.toInt64? (Numeral.signed negative n)).map .integer

/-- The integer in decimal digits, or the nearest number when it has more than 64 bits. -/
def ofDecimal? (negative : Bool) (digits : List Char) : Option RawValue :=
  let n := Numeral.ofDigits digits
  match Numeral.toInt64? (Numeral.signed negative n) with
  | some i => some (.integer i)
  | none => if !negative && n < UInt64.size then none else real? negative digits

/-- The number that a word is. -/
def number? (word : List Char) : Option RawValue :=
  let (negative, body) := Numeral.splitSign word
  match body with
  | '0' :: 'x' :: digits => ofHexadecimal? negative digits
  | '0' :: 'X' :: digits => ofHexadecimal? negative digits
  | _ =>
    if hasNeedlessZero body then none
    else if !body.isEmpty && body.all Char.isDigit then ofDecimal? negative body
    else real? negative body

/-- The characters of words. -/
def isWordChar (c : Char) : Bool := c.isAlphanum || c == '+' || c == '-' || c == '.'

/-- The value that a word is. -/
def ofWord? (word : List Char) : Option RawValue :=
  if word = "null".toList then some .null
  else if word = "true".toList then some (.bool true)
  else if word = "false".toList then some (.bool false)
  else number? word

/-! ## Collections -/

/-- Reads what separates two parts or ends them: a comma, the closing bracket, or both. The answer
says whether the collection ends. -/
def separator? (closing : Char) (text : List Char) : Option (Bool × List Char) :=
  match skip text with
  | [] => none
  | c :: rest =>
    if c = closing then some (true, rest)
    else if c = ',' then
      match skip rest with
      | [] => none
      | d :: after => if d = closing then some (true, after) else some (false, d :: after)
    else none

/-- Reads the elements of an array, of which there is one at least, with a reader for values. -/
def elements? (value : Reader RawValue) : Nat → List Char → Option (List Char)
  | 0, _ => none
  | bound + 1, text =>
    match value (skip text) with
    | none => none
    | some (_, rest) =>
      match separator? ']' rest with
      | some (true, rest) => some rest
      | some (false, rest) => elements? value bound rest
      | none => none

/-- Reads the members of an object, of which there is one at least, behind those `taken` (the last
one first), with a reader for values. -/
def members? (value : Reader RawValue) :
    Nat → List (String × RawValue) → Reader (List (String × RawValue))
  | 0, _, _ => none
  | bound + 1, taken, text =>
    match key? (skip text) with
    | none => none
    | some (key, rest) =>
      match skip rest with
      | ':' :: rest =>
        match value (skip rest) with
        | none => none
        | some (v, rest) =>
          match separator? '\x7d' rest with
          | some (true, rest) => some (((key, v) :: taken).reverse, rest)
          | some (false, rest) => members? value bound ((key, v) :: taken) rest
          | none => none
      | _ => none

/-- Reads the members of an object after its bracket. -/
def object? (value : Reader RawValue) : Reader (List (String × RawValue)) := fun text =>
  match skip text with
  | '\x7d' :: rest => some ([], rest)
  | rest => members? value (rest.length + 1) [] rest

/-- Reads a value with at most `levels` arrays and objects within one another. -/
def value : (levels : Nat) → Reader RawValue
  | 0, _ => none
  | levels + 1, text =>
    match text with
    | '[' :: rest =>
      match skip rest with
      | ']' :: rest => some (.composite, rest)
      | rest => (elements? (value levels) (rest.length + 1) rest).map fun rest => (.composite, rest)
    | '\x7b' :: rest => (object? (value levels) rest).map fun (_, rest) => (.composite, rest)
    | '"' :: _ => (string? text).map fun (s, rest) => (.text s, rest)
    | '\'' :: _ => (string? text).map fun (s, rest) => (.text s, rest)
    | _ =>
      let word := text.takeWhile isWordChar
      (ofWord? word).map fun v => (v, text.drop word.length)

/-- The settings of a text. -/
def read? (text : List Char) : Option Layer :=
  match skip text with
  | '\x7b' :: rest =>
    match object? (value text.length) rest with
    | some (members, rest) => if (skip rest).isEmpty then some (.ofKeys members) else none
    | none => none
  | _ => none

end RecordFilter.Settings.Json5
