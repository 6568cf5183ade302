/-!
# Standing in a YAML text

A YAML text is read from its beginning to its first null character, with every line break as one
line feed. A cursor is a place in the text: what follows it, and where it is. Layout needs the
column, keys need to know how far away their beginning is, and some rules hold only at the
beginning of a line, as long as nothing but gaps has been read of it.
-/

namespace RecordFilter.Yaml

/-! ## Characters -/

/-- The blanks within a line. -/
def isGap (c : Char) : Bool := c == ' ' || c == '\t'

/-- The characters that structure flow collections. -/
def isFlowMark (c : Char) : Bool :=
  c == ',' || c == '[' || c == ']' || c == '\x7b' || c == '\x7d'

/-- The characters of names: ASCII letters and digits, the underscore and the dash. -/
def isNameChar (c : Char) : Bool := c.isAlphanum || c == '_' || c == '-'

/-- The text begins with a gap. -/
def gapNext : List Char → Bool
  | [] => false
  | c :: _ => isGap c

/-- The text is at the end of a line. -/
def lineEnds : List Char → Bool
  | [] => true
  | c :: _ => c == '\n'

/-- A gap or the end of the line comes next. -/
def blankNext (text : List Char) : Bool := gapNext text || lineEnds text

/-- A mark that begins or ends a document comes next: three characters of the kind, then a blank. -/
def markNext (c : Char) : List Char → Bool
  | a :: b :: d :: rest => a == c && b == c && d == c && blankNext rest
  | _ => false

/-- A mark of documents comes next. -/
def documentMarkNext (text : List Char) : Bool := markNext '-' text || markNext '.' text

/-- The text with one line feed for each line break. -/
def unifyBreaks : List Char → List Char
  | [] => []
  | '\r' :: '\n' :: rest => '\n' :: unifyBreaks rest
  | '\r' :: rest => '\n' :: unifyBreaks rest
  | c :: rest => c :: unifyBreaks rest

/-! ## Cursors -/

/-- A place in a text. -/
structure Cursor where
  /-- The text that follows. -/
  rest : List Char
  /-- The number of characters before the place. -/
  index : Nat
  line : Nat
  column : Nat
  /-- Nothing but gaps has been read of the line. -/
  fresh : Bool

namespace Cursor

/-- The beginning of a text. -/
def start (text : List Char) : Cursor :=
  ⟨unifyBreaks (text.takeWhile (· != '\x00')), 0, 0, 0, true⟩

/-- After a gap. -/
def afterGap (c : Cursor) : Cursor :=
  { c with rest := c.rest.tail, index := c.index + 1, column := c.column + 1 }

/-- After some characters within the line. -/
def skip (c : Cursor) (count : Nat) : Cursor :=
  { c with
    rest := c.rest.drop count
    index := c.index + count
    column := c.column + count
    fresh := c.fresh && count == 0 }

/-- After some gaps. -/
def skipGaps (c : Cursor) (count : Nat) : Cursor := { c.skip count with fresh := c.fresh }

/-- After a line break. -/
def afterBreak (c : Cursor) : Cursor := ⟨c.rest.tail, c.index + 1, c.line + 1, 0, true⟩

/-- At the end of the line. -/
def toLineEnd (c : Cursor) : Cursor := c.skip (c.rest.takeWhile (· != '\n')).length

/-- Behind the gaps that come next. -/
def overGaps (c : Cursor) : Cursor := c.skipGaps (c.rest.takeWhile isGap).length

/-- Behind the gaps and the comment that come next. There is no such place when a comment follows
without a gap. -/
def overTrailer? (c : Cursor) : Option Cursor :=
  match c.overGaps.rest with
  | '#' :: _ => if gapNext c.rest then some c.overGaps.toLineEnd else none
  | _ => some c.overGaps

end Cursor

end RecordFilter.Yaml
