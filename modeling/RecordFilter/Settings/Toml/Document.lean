import RecordFilter.Settings.Layer
import RecordFilter.Settings.Toml.Scalar
import RecordFilter.Settings.Toml.Table

/-!
# TOML documents

A document is a sequence of lines. A line is blank, opens a table by a header in brackets, or gives
a value to a key after an equals sign; a comment may end it. A key is a path of names with points
between them. A list between brackets and a table between braces go over any number of lines.
-/

namespace RecordFilter.Settings.Toml

/-! ## Blanks and comments -/

/-- The text after the comment that it begins with, if it begins with one. A comment ends before the
line break and holds no control character. -/
def afterComment? : List Char → Option (List Char)
  | '#' :: rest =>
    let rest := rest.dropWhile fun c => !isControl c
    match rest with
    | [] => some rest
    | _ => (afterBreak? rest).map fun _ => rest
  | text => some text

/-- Reads the end of a line: gaps, a comment, and a line break or the end of the text. -/
def lineEnd? (text : List Char) : Option (List Char) :=
  match afterComment? (skipGaps text) with
  | none => none
  | some [] => some []
  | some rest => afterBreak? rest

/-- The text without the gaps, line breaks and comments it begins with. -/
def skipLines : Nat → List Char → Option (List Char)
  | 0, _ => none
  | bound + 1, text =>
    match afterComment? (skipGaps text) with
    | none => none
    | some rest =>
      match afterBreak? rest with
      | some rest => skipLines bound rest
      | none => some rest

/-! ## Keys -/

/-- The characters of names without quotes. -/
def isNameChar (c : Char) : Bool := c.isAlphanum || c == '_' || c == '-'

/-- Reads a name: on its own, or as a string of one line. -/
def name? : Reader String := fun text =>
  match text with
  | '"' :: rest =>
    if rest.take 2 = ['"', '"'] then none else string? text
  | '\'' :: rest =>
    if rest.take 2 = ['\'', '\''] then none else string? text
  | _ =>
    let name := text.takeWhile isNameChar
    if name.isEmpty then none else some (String.ofList name, text.drop name.length)

/-- Reads a path of names, behind those `taken` (the last one first). -/
def pathAfter : Nat → List String → Reader (List String)
  | 0, _, _ => none
  | bound + 1, taken, text =>
    match name? (skipGaps text) with
    | none => none
    | some (name, rest) =>
      match skipGaps rest with
      | '.' :: rest => pathAfter bound (name :: taken) rest
      | rest => some ((name :: taken).reverse, rest)

/-- Reads a path of names. -/
def path? : Reader (List String) := fun text => pathAfter (text.length + 1) [] text

/-! ## Values -/

/-- Reads the elements of a list up to its closing bracket, with a reader for values. -/
def elements? (value : Reader RawValue) : Nat → List Char → Option (List Char)
  | 0, _ => none
  | bound + 1, text =>
    match skipLines (text.length + 1) text with
    | none => none
    | some (']' :: rest) => some rest
    | some rest =>
      match value rest with
      | none => none
      | some (_, rest) =>
        match skipLines (rest.length + 1) rest with
        | some (',' :: rest) => elements? value bound rest
        | some (']' :: rest) => some rest
        | _ => none

/-- Reads the parts of a table in braces up to the closing one, behind those taken, with a reader
for values. A comma may follow the last part. -/
def parts? (value : Reader RawValue) : Nat → Entries → List Char → Option (List Char)
  | 0, _, _ => none
  | bound + 1, entries, text =>
    match skipLines (text.length + 1) text with
    | none => none
    | some ('\x7d' :: rest) => some rest
    | some rest =>
      match path? rest with
      | some (path, '=' :: rest) =>
        match value (skipGaps rest) with
        | none => none
        | some (v, rest) =>
          match entries.give? path v, skipLines (rest.length + 1) rest with
          | some entries, some (',' :: rest) => parts? value bound entries rest
          | some _, some ('\x7d' :: rest) => some rest
          | _, _ => none
      | _ => none

/-- The deepest nesting of lists and tables in a value. -/
def maxNesting : Nat := 80

/-- Reads a value with at most `levels` lists and tables within one another. -/
def value : (levels : Nat) → Reader RawValue
  | 0, _ => none
  | levels + 1, text =>
    match text with
    | '[' :: rest =>
      (elements? (value levels) (rest.length + 1) rest).map fun rest => (.composite, rest)
    | '\x7b' :: rest =>
      (parts? (value levels) (rest.length + 1) [] rest).map fun rest => (.composite, rest)
    | _ => scalar? text

/-! ## Documents -/

/-- The tables of a document, and the path to the one that is open. -/
structure State where
  entries : Entries
  table : List String

/-- Reads a line that is not blank. -/
def line? (s : State) (text : List Char) : Option (State × List Char) :=
  match text with
  | '[' :: '[' :: rest =>
    match path? rest with
    | some (path, ']' :: ']' :: rest) =>
      (s.entries.extend? path).map fun entries => (⟨entries, path⟩, rest)
    | _ => none
  | '[' :: rest =>
    match path? rest with
    | some (path, ']' :: rest) =>
      (s.entries.open? path).map fun entries => (⟨entries, path⟩, rest)
    | _ => none
  | _ =>
    match path? text with
    | some (path, '=' :: rest) =>
      match value maxNesting (skipGaps rest) with
      | some (v, rest) =>
        (s.entries.giveIn? s.table path v).map fun entries => (⟨entries, s.table⟩, rest)
      | none => none
    | _ => none

/-- Reads the lines that follow. -/
def lines? : Nat → State → List Char → Option Entries
  | 0, _, _ => none
  | bound + 1, s, text =>
    match skipLines (text.length + 1) text with
    | none => none
    | some [] => some s.entries
    | some rest =>
      match line? s rest with
      | none => none
      | some (s, rest) =>
        match lineEnd? rest with
        | some rest => lines? bound s rest
        | none => none

/-- The settings of a text. -/
def read? (text : List Char) : Option Layer :=
  (lines? (text.length + 1) ⟨[], []⟩ text).map fun entries =>
    .ofKeys (entries.map fun entry => (entry.1, entry.2.toRaw))

end RecordFilter.Settings.Toml
