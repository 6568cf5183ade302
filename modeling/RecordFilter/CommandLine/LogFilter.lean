import RecordFilter.CommandLine.Log
import RecordFilter.Numeral
import RecordFilter.Pattern.Reader
import RecordFilter.Text.Cut

/-!
# Choosing what is logged

How much is logged is said by directives with commas between them. A directive names a level, the
beginning of the origins that it concerns, or both with an equals sign between them; what it leaves
open is everything. Of the directives that concern a message the one with the longest beginning
decides, and of equal ones the last. A directive about spans of work, in brackets, concerns no
message, unless it only asks for fields that messages have. What is not a directive is passed over.
Without any directive a usual level decides.

The places of the marks in a directive are counted in bytes from its first character that is not
blank, while its parts are cut from the whole text, so blanks around a directive become a part of
it. A place may even fall into a character. Then the text cannot be understood at all.
-/

namespace RecordFilter

/-- What a directive says. -/
structure Directive where
  /-- The beginning of the origins that it concerns; without one it concerns all. -/
  beginning : Option (List Char)
  /-- The field that messages need to have, if it asks for one. -/
  field : Option (List Char)
  /-- It concerns spans of work only. -/
  spans : Bool
  /-- How much is logged. -/
  rank : Nat
  deriving DecidableEq

namespace Directive

/-- Why a text is no directive. -/
inductive Fault where
  /-- It is not written like one. -/
  | malformed
  /-- A part of it begins or ends within a character. -/
  | torn
  deriving DecidableEq

/-! ## Levels -/

/-- The rank of everything. -/
def everything : Nat := 5

/-- The names of levels, and their ranks. -/
def levelNames : List (List Char × Nat) :=
  [("off".toList, 0), ("error".toList, 1), ("warn".toList, 2), ("info".toList, 3),
    ("debug".toList, 4), ("trace".toList, 5)]

/-- The rank that a text names, in any case, or spells in digits. -/
def rank? (text : List Char) : Option Nat :=
  match Numeral.natural64? text with
  | some n => if n ≤ everything then some n else none
  | none => levelNames.lookup (text.map Char.toLower)

/-- The rank behind an equals sign; nothing behind it is everything. -/
def rankOrAll? (text : List Char) : Option Nat :=
  if text.isEmpty then some everything else rank? text

/-! ## Parts -/

/-- The characters that a directive begins with when it does not begin with a bracket. -/
def isFirst (c : Char) : Bool := c == '-' || c == ':' || c == '_' || Text.isAlphanumeric c

/-- The part of the text between two places. -/
def part (text : List Char) (first last : Nat) : Except Fault (List Char) :=
  match Text.cut? first last text with
  | some part => .ok part
  | none => .error .torn

/-- The directive with the level that the text names from a place on. -/
def withRank (text : List Char) (place : Nat) (d : Directive) : Except Fault Directive :=
  match Text.dropBytes? place text with
  | none => .error .torn
  | some level =>
    match rankOrAll? level with
    | some rank => .ok { d with rank := rank }
    | none => .error .malformed

/-- The value that a field has to have can be looked for: it is a truth value or a number, or else
a pattern that can be used. -/
def isFieldValue (value : List Char) : Bool :=
  value == "true".toList || value == "false".toList || (Numeral.binary64? value).isSome ||
    ((Pattern.read? value).map Pattern.isUsable).getD false

/-- The field is asked for together with a value, which stands between an equals sign and the next
one, if there is one. -/
def valueOf? (field : List Char) : Option (List Char) :=
  match field.dropWhile (· != '=') with
  | _ :: value => some (value.takeWhile (· != '='))
  | [] => none

/-- The field can be asked for. -/
def isField (field : List Char) : Bool := !field.isEmpty && (valueOf? field).all isFieldValue

/-- The directive that is a level, or else a beginning of origins. -/
def ofWord (word : List Char) : Directive :=
  match rank? word with
  | some rank => ⟨none, none, false, rank⟩
  | none => ⟨some word, none, false, everything⟩

/-- Reads what stands behind the closing bracket: nothing, or an equals sign and a level. The text
after the bracket is `rest`, and `place` is where it begins. -/
def behindBracket (text : List Char) (d : Directive) (place : Nat) (rest : List Char) :
    Except Fault Directive :=
  match rest with
  | [] => .ok d
  | '=' :: _ => withRank text (place + 1) d
  | _ => .error .malformed

/-- Reads the field in braces, the text after the first of which is `rest` and begins at `place`;
`d` is the directive without the field. -/
def withField (text : List Char) (d : Directive) (place : Nat) (rest : List Char) :
    Except Fault Directive :=
  let inner := rest.takeWhile (· != '\x7d')
  let last := place + Text.byteLength inner
  match rest.drop inner.length with
  | [] => .error .malformed
  | _ :: after =>
    match part text place last with
    | .error fault => .error fault
    | .ok field =>
      match isField field, after with
      | true, ']' :: after =>
        behindBracket text ⟨d.beginning, some field, d.spans || (valueOf? field).isSome, d.rank⟩
          (last + 2) after
      | _, _ => .error .malformed

/-- Reads what stands in brackets, the text after the first of which is `rest` and begins at
`place`: the name of a span, or a field in braces behind such a name. -/
def inBrackets (text : List Char) (beginning : Option (List Char)) (place : Nat)
    (rest : List Char) : Except Fault Directive :=
  let name := rest.takeWhile fun c => c != ']' && c != '\x7b'
  let last := place + Text.byteLength name
  match rest.drop name.length with
  | [] => .error .malformed
  | c :: after =>
    match part text place last with
    | .error fault => .error fault
    | .ok _ =>
      if c = ']' then behindBracket text ⟨beginning, none, true, everything⟩ (last + 1) after
      else withField text ⟨beginning, none, !name.isEmpty, everything⟩ (last + 1) after

/-- The directive that a text is. -/
def ofText (text : List Char) : Except Fault Directive :=
  match Text.trim text with
  | [] => .error .malformed
  | c :: rest =>
    if c = '[' then inBrackets text none 1 rest
    else if !isFirst c then .error .malformed
    else
      let name := (c :: rest).takeWhile fun c => c != '=' && c != '['
      let last := Text.byteLength name
      match (c :: rest).drop name.length with
      | [] => .ok (ofWord text)
      | d :: after =>
        match part text 0 last with
        | .error fault => .error fault
        | .ok beginning =>
          if d = '=' then withRank text (last + 1) ⟨some beginning, none, false, everything⟩
          else inBrackets text (some beginning) (last + 1) after

/-! ## Messages -/

/-- The fields that messages have. -/
def messageField : List Char := "message".toList

/-- The directive concerns the messages of an origin. -/
def concerns (d : Directive) (origin : Origin) : Bool :=
  !d.spans && d.beginning.all (·.isPrefixOf origin.name.toList) && d.field.all (· == messageField)

/-- How closely the directive says what it concerns. -/
def closeness (d : Directive) : Nat :=
  2 * (d.beginning.map fun b => b.length + 1).getD 0 + if d.field.isSome then 1 else 0

end Directive

/-- What is logged. -/
structure LogFilter where
  directives : List Directive
  /-- The rank that decides when there are no directives. -/
  usual : Nat

namespace LogFilter

/-- The directives among the parts of a text, if none of them is torn. -/
def directives? : List (List Char) → Option (List Directive)
  | [] => some []
  | part :: parts =>
    match Directive.ofText part with
    | .error .torn => none
    | .error .malformed => directives? parts
    | .ok d => (directives? parts).map (d :: ·)

/-- The directives in a text, with the usual rank. -/
def ofText? (text : List Char) (usual : Nat) : Option LogFilter :=
  (directives? ((text.splitOn ',').filter fun part => !part.isEmpty)).map fun ds => ⟨ds, usual⟩

/-- The closer of two directives; of equally close ones the second. -/
def closer (best : Option Directive) (d : Directive) : Option Directive :=
  if (best.map Directive.closeness).all (· ≤ d.closeness) then some d else best

/-- The closest of the directives that concern an origin, and the last of those. -/
def closest? (directives : List Directive) (origin : Origin) : Option Directive :=
  (directives.filter (·.concerns origin)).foldl closer none

/-- How much of an origin is logged. -/
def rankOf (f : LogFilter) (origin : Origin) : Nat :=
  if f.directives.isEmpty then f.usual
  else ((closest? f.directives origin).map Directive.rank).getD 0

/-- The line is logged. -/
def shows (f : LogFilter) (l : LogLine) : Bool := l.level.rank ≤ f.rankOf l.origin

end LogFilter

end RecordFilter
