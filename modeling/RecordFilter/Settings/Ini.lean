import RecordFilter.Json.Reader
import RecordFilter.Settings.Layer
import RecordFilter.Text.Blank

/-!
# Settings written as sections of keys

A key is what stands before an equals sign or a colon, and its value is the rest of the line, which
is a text in any case. A part of the value may stand between quotes, and a backslash begins an
escape everywhere. A name in brackets begins a section, which is a value with parts. A comment takes
a whole line.
-/

namespace RecordFilter.Settings.Ini

/-- Takes a text off the front of the text. -/
abbrev Reader := List Char → Option (List Char × List Char)

/-- The character with the code point that four hexadecimal digits spell. -/
def codePoint? (digits : List Char) : Option Char :=
  if digits.length < 4 then none
  else
    (digits.mapM Json.hexDigit?).bind fun ds =>
      let n := ds.foldl (fun n d => n * 16 + d) 0
      if n < 0xD800 ∨ 0xE000 ≤ n then some (Char.ofNat n) else none

/-- Reads an escape after its backslash. A line break is left out. -/
def escape? : Reader
  | [] => none
  | '0' :: rest => some (['\x00'], rest)
  | 'a' :: rest => some (['\x07'], rest)
  | 'b' :: rest => some (['\x08'], rest)
  | 't' :: rest => some (['\t'], rest)
  | 'r' :: rest => some (['\r'], rest)
  | 'n' :: rest => some (['\n'], rest)
  | '\n' :: rest => some ([], rest)
  | 'x' :: rest => (codePoint? (rest.take 4)).map fun c => ([c], rest.drop 4)
  | c :: rest => some ([c], rest)

/-- Reads up to one of the characters that end it, behind the characters `taken` (the last one
first). The text may end before that if `open_`. -/
def upTo (ends : Char → Bool) (open_ : Bool) : Nat → List Char → Reader
  | 0, _, _ => none
  | _ + 1, taken, [] => if open_ then some (taken.reverse, []) else none
  | bound + 1, taken, c :: rest =>
    if ends c then some (taken.reverse, c :: rest)
    else if c = '\\' then
      match escape? rest with
      | some (cs, rest) => upTo ends open_ bound (cs.reverse ++ taken) rest
      | none => none
    else upTo ends open_ bound (c :: taken) rest

/-- The text without the blanks it ends with. -/
def trimRight (text : List Char) : List Char := (Text.trimLeft text.reverse).reverse

/-- The character ends a line. -/
def endsLine (c : Char) : Bool := c == '\n' || c == '\r'

/-- Reads a value, behind the part `taken`: quoted parts, and then the rest of the line without the
blanks around it. Only the first part has blanks before it. -/
def parts? : Nat → Option (List Char) → Reader
  | 0, _, _ => none
  | bound + 1, taken, text =>
    let before := taken.getD []
    match text with
    | [] => some (before, [])
    | c :: rest =>
      if c = '"' ∨ c = '\'' then
        match upTo (· == c) false (rest.length + 1) [] rest with
        | some (part, rest) => parts? bound (some (before ++ part)) rest.tail
        | none => none
      else
        (upTo endsLine true (text.length + 1) [] text).map fun (part, rest) =>
          (before ++ if taken.isSome then trimRight part else Text.trim part, rest)

/-- Reads a value after its equals sign. -/
def value? : Reader := fun text =>
  let body := text.dropWhile fun c => Text.isBlank c && !endsLine c
  parts? (body.length + 1) none body

/-- The text without the blanks it begins with, and whether it then is at the beginning of a
line. -/
def skipBlanks : Bool → List Char → Bool × List Char
  | fresh, [] => (fresh, [])
  | fresh, c :: rest => if Text.isBlank c then skipBlanks (c == '\n') rest else (fresh, c :: rest)

/-- How far a text has been read. -/
structure State where
  /-- The keys and values so far, the last one first. -/
  given : List (String × RawValue)
  /-- A section has begun. -/
  inSection : Bool

/-- Reads a section at its bracket, or a key with its value. -/
def item? (s : State) (text : List Char) : Option (State × List Char) :=
  match text with
  | '[' :: rest =>
    (upTo (· == ']') false (rest.length + 1) [] rest).map fun (name, rest) =>
      (⟨(String.ofList (Text.trim name), .composite) :: s.given, true⟩, rest.tail)
  | _ =>
    match upTo (fun c => c == '=' || c == ':') false (text.length + 1) [] text with
    | none => none
    | some (key, rest) =>
      let key := Text.trim key
      if key.isEmpty then none
      else
        (value? rest.tail).map fun (v, rest) =>
          (if s.inSection then s
            else ⟨(String.ofList key, .text (String.ofList v)) :: s.given, false⟩, rest)

/-- Reads what follows; a comment stands at the beginning of a line. -/
def items? : Nat → State → Bool → List Char → Option (List (String × RawValue))
  | 0, _, _, _ => none
  | bound + 1, s, fresh, text =>
    match skipBlanks fresh text with
    | (_, []) => some s.given.reverse
    | (fresh, c :: rest) =>
      if c = ';' ∨ c = '#' then
        if fresh then items? bound s false (rest.dropWhile (· != '\n')) else none
      else
        match item? s (c :: rest) with
        | some (s, rest) => items? bound s false rest
        | none => none

/-- The settings of a text. -/
def read? (text : List Char) : Option Layer :=
  (items? (text.length + 1) ⟨[], false⟩ true text).map .ofKeys

end RecordFilter.Settings.Ini
