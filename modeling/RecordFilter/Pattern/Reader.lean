import RecordFilter.Json.Reader
import RecordFilter.Pattern.Basic
import RecordFilter.Text.Blank
import RecordFilter.Text.Letters

/-!
# Reading patterns

A pattern is read character by character. A backslash gives the next character another meaning:
punctuation stands for itself, and letters for control characters, edges, kinds of characters or
characters given by their code points. A group stands between parentheses, where a question mark
begins its name or its switches. A bar separates the patterns of a choice. In sets between brackets
a hyphen makes a range, and two equal signs combine what stands on both sides of them.
-/

namespace RecordFilter.Pattern

/-- Takes something off the front of the text. -/
abbrev Reader (α : Type) := List Char → Option (α × List Char)

/-! ## Blanks -/

/-- The text without the blanks and comments it begins with; within a comment it is dropped up to
the end of the line first. -/
def skipFrom : (comment : Bool) → List Char → List Char
  | _, [] => []
  | true, c :: rest => skipFrom (c != '\n') rest
  | false, c :: rest =>
    if Text.isBlank c then skipFrom false rest
    else if c = '#' then skipFrom true rest
    else c :: rest

/-- The text without the blanks and comments it begins with, if those mean nothing. -/
def skip (spaced : Bool) (text : List Char) : List Char :=
  if spaced then skipFrom false text else text

/-- The next character that is no blank, if blanks mean nothing. One number sign before it is passed
over. -/
def peek? (spaced : Bool) (text : List Char) : Option Char :=
  if spaced then
    let next :=
      match Text.trimLeft text with
      | '#' :: rest => Text.trimLeft rest
      | rest => rest
    next.head?.or text.head?
  else text.head?

/-! ## Characters -/

/-- The character stands for itself behind a backslash: ASCII, but no letter, digit or angle
bracket. -/
def isEscapable (c : Char) : Bool := c.toNat < 0x80 && !c.isAlphanum && c != '<' && c != '>'

/-- How many hexadecimal digits follow the letter behind a backslash. -/
def hexCount? : Char → Option Nat
  | 'x' => some 2
  | 'u' => some 4
  | 'U' => some 8
  | _ => none

/-- Reads hexadecimal digits, behind the number that the digits before them spell. -/
def hexDigits? (spaced : Bool) : Nat → Nat → Reader Nat
  | 0, n, text => some (n, text)
  | count + 1, n, text =>
    match skip spaced text with
    | [] => none
    | c :: rest => (Json.hexDigit? c).bind fun d => hexDigits? spaced count (n * 16 + d) rest

/-- The control character that a letter behind a backslash stands for. -/
def controlOf? : Char → Option Char
  | 'a' => some '\x07'
  | 'f' => some '\x0c'
  | 't' => some '\t'
  | 'n' => some '\n'
  | 'r' => some '\r'
  | 'v' => some '\x0b'
  | _ => none

/-- What a letter behind a backslash stands for, if it is no character. -/
def escaped? : Char → Option Pattern
  | 'd' => some (.kind false)
  | 's' => some (.kind false)
  | 'w' => some (.kind false)
  | 'D' => some (.kind true)
  | 'S' => some (.kind true)
  | 'W' => some (.kind true)
  | 'A' => some .edge
  | 'z' => some .edge
  | 'b' => some .wordEdge
  | 'B' => some .wordEdge
  | '<' => some .wordEdge
  | '>' => some .wordEdge
  | _ => none

/-- Reads what follows a backslash. -/
def escape? (spaced : Bool) : Reader Pattern
  | [] => none
  | c :: rest =>
    match hexCount? c with
    | some count =>
      match hexDigits? spaced count 0 rest with
      | some (n, rest) =>
        if n < 0xD800 ∨ (0xE000 ≤ n ∧ n < 0x110000) then
          some (.letter (Char.ofNat n) (c == 'x'), rest)
        else none
      | none => none
    | none =>
      if c = 'p' ∨ c = 'P' then
        match skip spaced rest with
        | [] => none
        | name :: rest => if name = '\\' then none else some (.property, rest)
      else if isEscapable c then some (.letter c false, rest)
      else
        match controlOf? c, escaped? c with
        | some d, _ => some (.letter d false, rest)
        | none, some p => some (p, rest)
        | none, none => none

/-- Reads a character or what a backslash begins. -/
def item? (spaced : Bool) : Reader Pattern
  | [] => none
  | '\\' :: rest => escape? spaced rest
  | c :: rest => some (.letter c false, rest)

/-! ## Sets -/

/-- The part of a set that an item is. -/
def setOf? : Pattern → Option CharSet
  | .letter c _ => some (.letter c)
  | .kind negated => some (.kind negated)
  | .property => some .property
  | _ => none

/-- The set of all characters from the first one to the last one. -/
def rangeOf? : Pattern → Pattern → Option CharSet
  | .letter a _, .letter b _ => if a ≤ b then some (.range a b) else none
  | _, _ => none

/-- Reads a part of a set: an item, or two with a hyphen between them. -/
def range? (spaced : Bool) : Reader CharSet := fun text =>
  match item? spaced text with
  | none => none
  | some (first, rest) =>
    match skip spaced rest with
    | [] => none
    | c :: rest =>
      if c != '-' || peek? spaced rest == some ']' || peek? spaced rest == some '-' then
        (setOf? first).map fun s => (s, c :: rest)
      else
        match item? spaced (skip spaced rest) with
        | some (last, rest) => (rangeOf? first last).map fun s => (s, rest)
        | none => none

/-- The names of classes of ASCII characters. -/
def classNames : List (List Char) :=
  ["alnum", "alpha", "ascii", "blank", "cntrl", "digit", "graph", "lower", "print", "punct",
    "space", "upper", "word", "xdigit"].map String.toList

/-- Reads the name of a class between colons, after the bracket before them. -/
def named? : Reader CharSet := fun text =>
  match text with
  | ':' :: rest =>
    let negated := rest.head? == some '^'
    let body := if negated then rest.tail else rest
    let name := body.takeWhile (· != ':')
    match body.drop name.length with
    | ':' :: ']' :: rest => if classNames.contains name then some (.named negated, rest) else none
    | _ => none
  | _ => none

/-- Reads the hyphens that a set begins with, behind those taken. -/
def hyphens? (spaced : Bool) : Nat → List CharSet → Reader (List CharSet)
  | 0, _, _ => none
  | _ + 1, _, [] => none
  | bound + 1, taken, c :: rest =>
    if c = '-' then hyphens? spaced bound (.letter '-' :: taken) (skip spaced rest)
    else some (taken, c :: rest)

/-- Reads the beginning of a set after its bracket: whether it is negated, and the hyphens or the
bracket that it holds first. -/
def openSet? (spaced : Bool) : Reader (Bool × List CharSet) := fun text =>
  let text := skip spaced text
  let negated := text.head? == some '^'
  let body := if negated then skip spaced text.tail else text
  match hyphens? spaced (body.length + 1) [] body with
  | some ([], ']' :: rest) =>
    match skip spaced rest with
    | [] => none
    | rest => some ((negated, [.letter ']']), rest)
  | some (taken, rest) => some ((negated, taken), rest)
  | none => none

/-- The parts of a set together; the last one is the first of the list. -/
def together : List CharSet → CharSet
  | [s] => s
  | parts => .union parts.reverse

/-- The parts of a set behind a sign that combines them with what is before it. -/
def combine (before : Option CharSet) (parts : List CharSet) : CharSet :=
  match before with
  | some left => .combined left (together parts)
  | none => together parts

/-- Reads a set up to its closing bracket, behind what a sign combines it with and the parts taken
(the last one first). -/
def setAfter (spaced : Bool) : Nat → Option CharSet → List CharSet → Reader CharSet
  | 0, _, _, _ => none
  | bound + 1, before, taken, text =>
    match skip spaced text with
    | [] => none
    | ']' :: rest => some (combine before taken, rest)
    | '&' :: '&' :: rest => setAfter spaced bound (some (combine before taken)) [] rest
    | '-' :: '-' :: rest => setAfter spaced bound (some (combine before taken)) [] rest
    | '~' :: '~' :: rest => setAfter spaced bound (some (combine before taken)) [] rest
    | '[' :: rest =>
      match named? rest with
      | some (s, rest) => setAfter spaced bound before (s :: taken) rest
      | none =>
        match openSet? spaced rest with
        | none => none
        | some ((negated, first), rest) =>
          match setAfter spaced bound none first rest with
          | some (s, rest) => setAfter spaced bound before (.bracket negated s :: taken) rest
          | none => none
    | text =>
      match range? spaced text with
      | some (s, rest) => setAfter spaced bound before (s :: taken) rest
      | none => none

/-- Reads a set after its opening bracket. -/
def set? (spaced : Bool) : Reader CharSet := fun text =>
  match openSet? spaced text with
  | some ((negated, first), rest) =>
    (setAfter spaced (rest.length + 1) none first rest).map fun (s, rest) =>
      (.bracket negated s, rest)
  | none => none

/-! ## Groups -/

/-- The switch that a letter stands for. -/
def switchOf? : Char → Option Switch
  | 'i' => some .caseless
  | 'm' => some .manyLines
  | 's' => some .anyBreak
  | 'U' => some .short
  | 'R' => some .returns
  | 'u' => some .unicode
  | 'x' => some .spaced
  | _ => none

/-- Reads changes of switches, behind those taken, up to a colon or a closing parenthesis; the
answer says whether it is a colon. Behind a hyphen switches are turned off; there is one at most,
and it is not the last sign. -/
def changes? (on : Bool) (dangling : Bool) (taken : List Change) : Reader (List Change × Bool)
  | [] => none
  | c :: rest =>
    if c = ':' ∨ c = ')' then
      if dangling then none else some ((taken.reverse, c == ':'), rest)
    else if c = '-' then
      if on then changes? false true taken rest else none
    else
      match switchOf? c with
      | none => none
      | some s =>
        if taken.any (·.switch == s) then none else changes? on false (⟨s, on⟩ :: taken) rest

/-- The character may stand in the name of a group. -/
def isNameChar (c : Char) : Bool :=
  c == '_' || c == '.' || c == '[' || c == ']' || Text.isAlphanumeric c

/-- Reads the name of a group and the bracket behind it. -/
def groupName? : Reader (List Char) := fun text =>
  let name := text.takeWhile isNameChar
  match name, text.drop name.length with
  | c :: _, '>' :: rest => if c = '_' ∨ Text.isAlphabetic c then some (name, rest) else none
  | _, _ => none

/-- What a parenthesis begins. -/
inductive Opening where
  | group (name : Option (List Char)) (changes : List Change)
  | switches (changes : List Change)

/-- Reads what a parenthesis begins, after it. -/
def opening? (spaced : Bool) : Reader Opening := fun text =>
  match skip spaced text with
  | '?' :: rest =>
    match rest with
    | '=' :: _ => none
    | '!' :: _ => none
    | '<' :: '=' :: _ => none
    | '<' :: '!' :: _ => none
    | '<' :: rest => (groupName? rest).map fun (name, rest) => (.group (some name) [], rest)
    | 'P' :: '<' :: rest => (groupName? rest).map fun (name, rest) => (.group (some name) [], rest)
    | rest =>
      match changes? true false [] rest with
      | some ((changes, true), rest) => some (.group none changes, rest)
      | some (([], false), _) => none
      | some ((changes, false), rest) => some (.switches changes, rest)
      | none => none
  | rest => some (.group none [], rest)

/-- Whether blanks mean nothing after the changes. -/
def spacedAfter (changes : List Change) (spaced : Bool) : Bool :=
  ((changes.find? (·.switch == .spaced)).map Change.on).getD spaced

/-! ## Patterns -/

/-- The sequence of patterns, of which the last one is the first of the list. -/
def inSequence : List Pattern → Pattern
  | [] => .empty
  | [p] => p
  | parts => .sequence parts.reverse

/-- The choice between the patterns of the list, the last one first, and a last pattern. -/
def inChoice (before : List Pattern) (last : Pattern) : Pattern :=
  match before with
  | [] => last
  | before => .choice (last :: before).reverse

/-- The patterns with the last one repeated, if there is one that can be. -/
def repeatLast? : List Pattern → Option (List Pattern)
  | [] => none
  | .switches _ :: _ => none
  | p :: before => some (.repeated p :: before)

/-- Reads up to a closing parenthesis or the end, behind the patterns of a choice and those of a
sequence that have been taken (the last one first). -/
def readFrom : Nat → Bool → List Pattern → List Pattern → Reader Pattern
  | 0, _, _, _, _ => none
  | bound + 1, spaced, before, taken, text =>
    match skip spaced text with
    | [] => some (inChoice before (inSequence taken), [])
    | ')' :: rest => some (inChoice before (inSequence taken), ')' :: rest)
    | '|' :: rest => readFrom bound spaced (inSequence taken :: before) [] rest
    | '(' :: rest =>
      match opening? spaced rest with
      | none => none
      | some (.switches changes, rest) =>
        readFrom bound (spacedAfter changes spaced) before (.switches changes :: taken) rest
      | some (.group name changes, rest) =>
        match readFrom bound (spacedAfter changes spaced) [] [] rest with
        | some (p, ')' :: rest) =>
          readFrom bound spaced before (.group name changes p :: taken) rest
        | _ => none
    | '[' :: rest =>
      match set? spaced rest with
      | some (s, rest) => readFrom bound spaced before (.set s :: taken) rest
      | none => none
    | '\x7b' :: _ => none
    | '.' :: rest => readFrom bound spaced before (.any :: taken) rest
    | '^' :: rest => readFrom bound spaced before (.edge :: taken) rest
    | '$' :: rest => readFrom bound spaced before (.edge :: taken) rest
    | c :: rest =>
      if c = '?' ∨ c = '*' ∨ c = '+' then
        match repeatLast? taken with
        | some taken =>
          readFrom bound spaced before taken (if rest.head? = some '?' then rest.tail else rest)
        | none => none
      else
        match item? spaced (c :: rest) with
        | some (p, rest) => readFrom bound spaced before (p :: taken) rest
        | none => none

/-- The pattern that a text is. A repetition between braces is not read. -/
def read? (text : List Char) : Option Pattern :=
  match readFrom (text.length + 1) false [] [] text with
  | some (p, []) => some p
  | _ => none

end RecordFilter.Pattern
