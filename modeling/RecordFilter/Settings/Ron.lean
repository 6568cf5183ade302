import RecordFilter.Json.Reader
import RecordFilter.Settings.Layer
import RecordFilter.Text.Lines
import RecordFilter.Text.Names

/-!
# Settings written in an object notation of structures

The settings are the fields of a structure in parentheses, before which its name may stand, or the
entries of a map in braces, whose keys are strings. A value is a truth value, a number, a character,
a string, bytes, a list, a structure, a map, or one of these after `Some`; `None`, a name alone and
an empty pair of parentheses stand for null. Comments may stand between any two parts. Before all
there may be attributes that turn on extensions, which do not matter here.
-/

namespace RecordFilter.Settings.Ron

/-- Takes a value off the front of the text. -/
abbrev Reader (α : Type) := List Char → Option (α × List Char)

/-! ## Blanks -/

/-- The character may stand between two parts. -/
def isSpace (c : Char) : Bool :=
  c == ' ' || c == '\t' || c == '\n' || c == '\r' || c == '\x0b' || c == '\x0c' ||
    c == '\u0085' || c == '\u200e' || c == '\u200f' || c == '\u2028' || c == '\u2029'

/-- The text after a comment that goes over several lines, of which `depth` more are open. -/
def afterStar? : Nat → List Char → Option (List Char)
  | _, [] => none
  | 0, '*' :: '/' :: rest => some rest
  | depth + 1, '*' :: '/' :: rest => afterStar? depth rest
  | depth, '/' :: '*' :: rest => afterStar? (depth + 1) rest
  | depth, _ :: rest => afterStar? depth rest

/-- The text without the blanks and comments it begins with. -/
def skipBlanks : Nat → List Char → List Char
  | 0, text => text
  | bound + 1, text =>
    match text.dropWhile isSpace with
    | '/' :: '/' :: rest => skipBlanks bound (rest.dropWhile (· != '\n'))
    | '/' :: '*' :: rest =>
      match afterStar? 0 rest with
      | some after => skipBlanks bound after
      | none => '/' :: '*' :: rest
    | rest => rest

/-- The text without the blanks and comments it begins with. -/
def skip (text : List Char) : List Char := skipBlanks (text.length + 1) text

/-! ## Strings and characters -/

/-- The character with the code point that the digits spell. -/
def codePoint? (digits : List Char) : Option Char :=
  if digits.isEmpty || 6 < digits.length then none
  else
    (digits.mapM Json.hexDigit?).bind fun ds =>
      let n := ds.foldl (fun n d => n * 16 + d) 0
      if n < 0xD800 ∨ (0xE000 ≤ n ∧ n < 0x110000) then some (Char.ofNat n) else none

/-- Reads the two hexadecimal digits of a byte. -/
def byte? : Reader UInt8
  | a :: b :: rest =>
    match Json.hexDigit? a, Json.hexDigit? b with
    | some a, some b => some (UInt8.ofNat (a * 16 + b), rest)
    | _, _ => none
  | _ => none

/-- Reads a character that is written as bytes, behind the bytes `taken`, with at most `more` bytes
after them. Each byte follows a backslash and the letter x. -/
def byteChar? : (more : Nat) → Text.Bytes → Reader Char
  | more, taken, text =>
    match Text.decode? taken with
    | some s => s.toList.head?.map fun c => (c, text)
    | none =>
      match more, text with
      | more + 1, '\\' :: 'x' :: rest =>
        match byte? rest with
        | some (b, rest) => byteChar? more (taken ++ [b]) rest
        | none => none
      | _, _ => none

/-- Reads what follows a backslash. A character may be written as up to `bytes` bytes. -/
def escape? (bytes : Nat) : Reader Char
  | '\'' :: rest => some ('\'', rest)
  | '"' :: rest => some ('"', rest)
  | '\\' :: rest => some ('\\', rest)
  | 'n' :: rest => some ('\n', rest)
  | 'r' :: rest => some ('\r', rest)
  | 't' :: rest => some ('\t', rest)
  | '0' :: rest => some ('\x00', rest)
  | 'x' :: rest => (byte? rest).bind fun (b, rest) => byteChar? (bytes - 1) [b] rest
  | 'u' :: '\x7b' :: rest =>
    let digits := rest.takeWhile (· != '\x7d')
    match rest.drop digits.length with
    | _ :: rest => (codePoint? digits).map fun c => (c, rest)
    | [] => none
  | _ => none

/-- Reads what follows a backslash among bytes, where a byte stands for itself. -/
def byteEscape? : Reader Char
  | 'x' :: rest => (byte? rest).map fun (b, rest) => (Char.ofNat b.toNat, rest)
  | text => escape? 1 text

/-- Reads a string after its opening quote, behind the characters `taken` so far (the last one
first), with a reader for what follows a backslash. -/
def stringAfter (escape : Reader Char) : Nat → List Char → Reader String
  | 0, _, _ => none
  | _ + 1, _, [] => none
  | bound + 1, taken, c :: rest =>
    if c = '"' then some (String.ofList taken.reverse, rest)
    else if c = '\\' then
      match escape rest with
      | some (c, rest) => stringAfter escape bound (c :: taken) rest
      | none => none
    else stringAfter escape bound (c :: taken) rest

/-- Reads a string without escapes up to a quote with the number signs behind it. -/
def rawAfter (closing : List Char) : List Char → Reader String
  | _, [] => none
  | taken, c :: rest =>
    if closing.isPrefixOf (c :: rest) then
      some (String.ofList taken.reverse, (c :: rest).drop closing.length)
    else rawAfter closing (c :: taken) rest

/-- Reads a string without escapes after its `r`. -/
def raw? : Reader String := fun text =>
  let signs := text.takeWhile (· == '#')
  match text.drop signs.length with
  | '"' :: body => rawAfter ('"' :: signs) [] body
  | _ => none

/-- Reads a string at its opening quote, or at the `r` of a string without escapes. -/
def string? : Reader String
  | '"' :: rest => stringAfter (escape? 4) (rest.length + 1) [] rest
  | 'r' :: rest => raw? rest
  | _ => none

/-- Reads a sequence of bytes at its `b`. -/
def bytes? : Reader String
  | 'b' :: '"' :: rest => stringAfter byteEscape? (rest.length + 1) [] rest
  | 'b' :: 'r' :: rest => raw? rest
  | _ => none

/-- Reads a character after its opening quote, with a reader for what follows a backslash. -/
def charAfter (escape : Reader Char) : Reader Char
  | '\\' :: rest =>
    match escape rest with
    | some (c, '\'' :: rest) => some (c, rest)
    | _ => none
  | c :: '\'' :: rest => some (c, rest)
  | _ => none

/-- Reads a character at its opening quote. -/
def char? : Reader String
  | '\'' :: rest => (charAfter (escape? 1) rest).map fun (c, rest) => (c.toString, rest)
  | _ => none

/-- Reads an ASCII character for its byte, at the `b` before its opening quote. -/
def byteNumber? : Reader RawValue
  | 'b' :: '\'' :: rest =>
    (charAfter byteEscape? rest).bind fun (c, after) =>
      if c.toNat < 0x80 || rest.head? == some '\\' then
        some (.integer (Int64.ofNat c.toNat), after)
      else none
  | _ => none

/-! ## Names -/

/-- The characters of names behind `r#`. -/
def isRawChar (c : Char) : Bool :=
  Text.continuesName c || c == '.' || c == '+' || c == '-'

/-- The text begins with a string or with bytes, though a name could begin with the same letter. -/
def beginsLiteral (text : List Char) : Bool :=
  ["b\"", "b'", "br\"", "br#", "r\""].any fun mark => mark.toList.isPrefixOf text

/-- Reads a name. After `r#` it may hold points, plus signs and hyphens. -/
def name? : Reader (List Char) := fun text =>
  if beginsLiteral text then none
  else if "r#".toList.isPrefixOf text then
    let name := (text.drop 2).takeWhile isRawChar
    if name.isEmpty then none else some (name, text.drop (name.length + 2))
  else
    let name := text.takeWhile Text.continuesName
    match name, text.drop name.length with
    | [], _ => none
    | c :: _, rest =>
      if (c == '_' || Text.beginsName c) && !(rest.head?.map isRawChar).getD false then
        some (name, rest)
      else none

/-! ## Numbers -/

/-- The characters of numbers. -/
def isNumberChar (c : Char) : Bool :=
  c.isAlphanum || c == '_' || c == '.' || c == '+' || c == '-'

/-- The magnitude that digits of a base spell, between which underscores may stand. -/
def magnitude? (base : Nat) (text : List Char) : Option Nat :=
  match (text.filter (· != '_')).mapM Json.hexDigit? with
  | some ds =>
    if text.isEmpty || text.head? = some '_' || !ds.all (· < base) then none
    else some (ds.foldl (fun n d => n * base + d) 0)
  | none => none

/-- The magnitude of an integer in one of four bases. -/
def unsigned? : List Char → Option Nat
  | '0' :: 'x' :: rest => magnitude? 16 rest
  | '0' :: 'o' :: rest => magnitude? 8 rest
  | '0' :: 'b' :: rest => magnitude? 2 rest
  | text => magnitude? 10 text

/-- The names of the types that may follow an integer, and how many bits those have besides a sign
bit, if they have one. -/
def integerTypes : List (List Char × Bool × Nat) :=
  [("i8".toList, true, 7), ("i16".toList, true, 15), ("i32".toList, true, 31),
    ("i64".toList, true, 63), ("u8".toList, false, 8), ("u16".toList, false, 16),
    ("u32".toList, false, 32), ("u64".toList, false, 64)]

/-- The integer, if it has at most 64 bits. -/
def ofInt? (n : Int) : Option RawValue :=
  match Numeral.toInt64? n with
  | some i => some (.integer i)
  | none => if 0 ≤ n ∧ n < UInt64.size then some (.natural (UInt64.ofNat n.toNat)) else none

/-- The integer that digits with the name of a type behind them spell. -/
def typedInteger? (negative : Bool) (body : List Char) : Option RawValue :=
  integerTypes.findSome? fun (suffix, hasSign, bits) =>
    if suffix.isSuffixOf body then
      (magnitude? 10 (body.take (body.length - suffix.length))).bind fun n =>
        let i := Numeral.signed negative n
        let bound : Int := Nat.pow 2 bits
        if (if hasSign then -bound else 0) ≤ i ∧ i < bound then ofInt? i else none
    else none

/-- The text without the name of a type of numbers with a point behind it. -/
def dropRealType (body : List Char) : List Char :=
  if "f32".toList.isSuffixOf body || "f64".toList.isSuffixOf body then body.take (body.length - 3)
  else body

/-- The number with a point that the text spells or names without a sign. -/
def real? (negative : Bool) (body : List Char) : Option RawValue :=
  let body := dropRealType body
  if body = "inf".toList then some (.real (.signed negative .infinity))
  else if body = "NaN".toList then some (.real .nan)
  else (Numeral.unsigned? body).map fun d => .real (d.toBinary64 negative)

/-- The number that a word is. An integer that has too many bits is a number with a point, if it is
written in decimal digits alone. -/
def number? (word : List Char) : Option RawValue :=
  let (negative, body) := Numeral.splitSign word
  match (unsigned? body).bind fun n => ofInt? (Numeral.signed negative n) with
  | some v => some v
  | none => (typedInteger? negative body).orElse fun _ => real? negative body

/-! ## Values -/

/-- Reads what separates two parts or ends them: a comma, the closing bracket, or both. The answer
says whether the collection ends. -/
def separator? (closing : Char) (text : List Char) : Option (Bool × List Char) :=
  match skip text with
  | [] => none
  | c :: rest =>
    if c = closing then some (true, rest)
    else if c = ',' then
      match skip rest with
      | [] => none
      | d :: after => if d = closing then some (true, after) else some (false, d :: after)
    else none

/-- Reads values up to the closing bracket, of which there is one at least. -/
def elements? (value : Reader RawValue) (closing : Char) : Nat → List Char → Option (List Char)
  | 0, _ => none
  | bound + 1, text =>
    match value (skip text) with
    | none => none
    | some (_, rest) =>
      match separator? closing rest with
      | some (true, rest) => some rest
      | some (false, rest) => elements? value closing bound rest
      | none => none

/-- Reads keys with their values up to the closing bracket, of which there is one at least, behind
those `taken` (the last one first). -/
def members? (key : Reader String) (value : Reader RawValue) (closing : Char) :
    Nat → List (String × RawValue) → Reader (List (String × RawValue))
  | 0, _, _ => none
  | bound + 1, taken, text =>
    match key (skip text) with
    | none => none
    | some (k, rest) =>
      match skip rest with
      | ':' :: rest =>
        match value (skip rest) with
        | none => none
        | some (v, rest) =>
          match separator? closing rest with
          | some (true, rest) => some (((k, v) :: taken).reverse, rest)
          | some (false, rest) => members? key value closing bound ((k, v) :: taken) rest
          | none => none
      | _ => none

/-- Reads the entries of a map after its bracket. Its keys are strings. -/
def map? (value : Reader RawValue) : Reader (List (String × RawValue)) := fun text =>
  match skip text with
  | '\x7d' :: rest => some ([], rest)
  | rest =>
    members? (fun t => (string? t).orElse fun _ => char? t) value '\x7d' (rest.length + 1) [] rest

/-- Reads the fields of a structure after its parenthesis. -/
def fields? (value : Reader RawValue) : Reader (List (String × RawValue)) := fun text =>
  let key : Reader String := fun t => (name? t).map fun (n, rest) => (String.ofList n, rest)
  members? key value ')' (text.length + 1) [] text

/-- Reads what stands in parentheses, after the first one: nothing, fields, or values. -/
def inParentheses? (value : Reader RawValue) : Reader RawValue := fun text =>
  match skip text with
  | ')' :: rest => some (.composite, rest)
  | rest =>
    match fields? value rest with
    | some (_, rest) => some (.composite, rest)
    | none => (elements? value ')' (rest.length + 1) rest).map fun rest => (.composite, rest)

/-- Reads what stands after `Some`, in parentheses, with a reader for it. -/
def optional? {α : Type} (value : Reader α) : Reader α := fun text =>
  match skip text with
  | '(' :: inner =>
    match value (skip inner) with
    | some (v, rest) =>
      match separator? ')' rest with
      | some (true, rest) => some (v, rest)
      | _ => none
    | none => none
  | _ => none

/-- Reads the value that a name begins. -/
def named? (value : Reader RawValue) (name : List Char) : Reader RawValue := fun rest =>
  if name = "true".toList then some (.bool true, rest)
  else if name = "false".toList then some (.bool false, rest)
  else if name = "None".toList then some (.null, rest)
  else if name = "Some".toList then optional? value rest
  else
    match real? false name, skip rest with
    | some v, _ => some (v, rest)
    | none, '(' :: inner => inParentheses? value inner
    | none, _ => some (.null, rest)

/-- Reads a value with at most `levels` values within one another. -/
def value : (levels : Nat) → Reader RawValue
  | 0, _ => none
  | levels + 1, text =>
    match text with
    | '(' :: ')' :: rest => some (.null, rest)
    | '(' :: rest => inParentheses? (value levels) rest
    | '[' :: rest =>
      match skip rest with
      | ']' :: rest => some (.composite, rest)
      | rest =>
        (elements? (value levels) ']' (rest.length + 1) rest).map fun rest => (.composite, rest)
    | '\x7b' :: rest => (map? (value levels) rest).map fun (_, rest) => (.composite, rest)
    | '\'' :: _ => (char? text).map fun (s, rest) => (.text s, rest)
    | _ =>
      match name? text with
      | some (name, rest) => named? (value levels) name rest
      | none =>
        match string? text, byteNumber? text, bytes? text with
        | some (s, rest), _, _ => some (.text s, rest)
        | none, some (v, rest), _ => some (v, rest)
        | none, none, some (_, rest) => some (.composite, rest)
        | none, none, none =>
          let word := text.takeWhile isNumberChar
          (number? word).map fun v => (v, text.drop word.length)

/-! ## Documents -/

/-- The deepest nesting of values. -/
def maxNesting : Nat := 128

/-- Reads the members of the structure or map that a document is, perhaps after `Some`. A structure
has a field at least. -/
def members : (levels : Nat) → Reader (List (String × RawValue))
  | 0, _ => none
  | levels + 1, text =>
    match text with
    | '\x7b' :: rest => map? (value levels) rest
    | '(' :: rest => fields? (value levels) (skip rest)
    | _ =>
      match name? text with
      | none => none
      | some (name, rest) =>
        if name = "Some".toList then optional? (members levels) rest
        else
          match skip rest with
          | '(' :: rest => fields? (value levels) (skip rest)
          | _ => none

/-- The extensions that can be turned on. -/
def extensions : List (List Char) :=
  ["unwrap_newtypes", "implicit_some", "unwrap_variant_newtypes", "explicit_struct_names"].map
    String.toList

/-- Takes words off the front of the text, each with the blanks behind it. -/
def dropWords? : List (List Char) → List Char → Option (List Char)
  | [], text => some text
  | word :: words, text =>
    if word.isPrefixOf text then dropWords? words (skip (text.drop word.length)) else none

/-- The text after the names of extensions, of which there is one at least, with commas between
them. -/
def afterExtensions? : Nat → List Char → Option (List Char)
  | 0, _ => none
  | bound + 1, text =>
    match name? text with
    | none => none
    | some (name, rest) =>
      if !extensions.contains name then none
      else
        match skip rest with
        | ',' :: rest =>
          match skip rest with
          | ')' :: after => some (')' :: after)
          | rest => afterExtensions? bound rest
        | rest => some rest

/-- The text after the attributes that it begins with. -/
def afterAttributes? : Nat → List Char → Option (List Char)
  | 0, _ => none
  | bound + 1, text =>
    match skip text with
    | '#' :: rest =>
      match dropWords? [['#'], ['!'], ['['], "enable".toList, ['(']] ('#' :: rest) with
      | none => none
      | some rest =>
        match (afterExtensions? (rest.length + 1) rest).bind (dropWords? [[')'], [']']]) with
        | some rest => afterAttributes? bound rest
        | none => none
    | rest => some rest

/-- The settings of a text. -/
def read? (text : List Char) : Option Layer :=
  match (afterAttributes? (text.length + 1) text).bind (members (maxNesting + 1)) with
  | some (given, rest) => if (skip rest).isEmpty then some (.ofKeys given) else none
  | none => none

end RecordFilter.Settings.Ron
