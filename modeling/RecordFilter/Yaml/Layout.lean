import RecordFilter.Yaml.Scalar
import RecordFilter.Yaml.Token

/-!
# The layout of YAML

Reads the tokens of a text. Indentation is a stack of columns: a block collection begins at a
column to the right of those that are open, and ends before a line further to the left. A key is
recognised only at the colon behind it, so the place of its tokens is kept while it is possible:
outside of flow collections a key has one line and at most 1024 characters. Where the indentation
asks for a key, one has to come.
-/

namespace RecordFilter.Yaml

/-- The place where a key may begin. -/
structure PossibleKey where
  /-- A key may begin here. -/
  possible : Bool
  /-- A key has to begin here. -/
  required : Bool
  /-- How many tokens come before it. -/
  position : Nat
  index : Nat
  line : Nat
  column : Nat

/-- No key can begin. -/
def PossibleKey.never : PossibleKey := ⟨false, false, 0, 0, 0, 0⟩

/-- A column that indentation returns to. -/
structure Indent where
  /-- The column further out. -/
  outer : Int
  /-- A block collection begins at the column, and its end has a token. -/
  block : Bool

/-- How far the text has been read, and what is open. -/
structure Layout where
  cursor : Cursor
  tokens : Array Token
  /-- The column of what is open; `-1` when nothing is. -/
  indent : Int
  /-- The columns further out, the next one first. -/
  indents : List Indent
  /-- A key may begin at the cursor. -/
  keyAllowed : Bool
  /-- Where a key may have begun in the innermost collection. -/
  key : PossibleKey
  /-- The same for the collections around it; all but the outermost are flow collections. -/
  outerKeys : List PossibleKey
  /-- At this index a value may follow its colon without a blank. -/
  adjacentAt : Nat
  /-- A flow mapping has been opened. -/
  inMapping : Bool
  /-- For each open flow sequence, whether an element is a mapping without marks. -/
  implicitMappings : List Bool

namespace Layout

/-- The beginning of a text. -/
def start (text : List Char) : Layout where
  cursor := .start text
  tokens := #[]
  indent := -1
  indents := []
  keyAllowed := true
  key := .never
  outerKeys := []
  adjacentAt := 0
  inMapping := false
  implicitMappings := []

/-- The cursor is within a flow collection. -/
def inFlow (l : Layout) : Bool := !l.outerKeys.isEmpty

/-- One more token. -/
def push (l : Layout) (t : Token) : Layout := { l with tokens := l.tokens.push t }

/-- One more token, before those from the position on. -/
def insert (l : Layout) (position : Nat) (t : Token) : Layout :=
  { l with tokens := l.tokens.insertIdxIfInBounds position t }

/-- The cursor has moved. -/
def moved (l : Layout) (c : Cursor) : Layout := { l with cursor := c }

/-! ## Keys -/

/-- A key may begin, or may not. -/
def allowKey (l : Layout) (allowed : Bool) : Layout := { l with keyAllowed := allowed }

/-- The key is too far away to be one. -/
def isStale (l : Layout) (k : PossibleKey) : Bool :=
  k.possible && !l.inFlow && (k.line < l.cursor.line || k.index + 1024 < l.cursor.index)

/-- Gives up the keys that are too far away, none of which may be required. -/
def dropStale? (l : Layout) : Option Layout :=
  let drop (k : PossibleKey) : PossibleKey :=
    if l.isStale k then { k with possible := false } else k
  if (l.key :: l.outerKeys).any fun k => l.isStale k && k.required then none
  else some { l with key := drop l.key, outerKeys := l.outerKeys.map drop }

/-- Gives up the key of the innermost collection, which may not be required. -/
def dropKey? (l : Layout) : Option Layout :=
  if l.key.possible && l.key.required then none
  else some { l with key := { l.key with possible := false } }

/-- Notes that a key may begin at the cursor. -/
def noteKey (l : Layout) : Layout :=
  if l.keyAllowed then
    let required := !l.inFlow && l.indent == (l.cursor.column : Int) &&
      (l.indents.head?.map Indent.block).getD false
    { l with key := ⟨true, required, l.tokens.size, l.cursor.index, l.cursor.line,
      l.cursor.column⟩ }
  else l

/-- Notes that a key may begin at the cursor, after which none may. -/
def noteNode (l : Layout) : Layout := l.noteKey.allowKey false

/-! ## Indentation -/

/-- Returns to a column. -/
def unroll (l : Layout) (column : Int) : Layout :=
  if l.inFlow then l else go l.indents l
where
  /-- Closes the columns of the list that are further to the right. -/
  go : List Indent → Layout → Layout
    | [], l => l
    | i :: rest, l =>
      if column < l.indent then
        let l := { l with indent := i.outer, indents := rest }
        go rest (if i.block then l.push .blockEnd else l)
      else l

/-- Returns to the column of the innermost block collection. -/
def unrollToBlock (l : Layout) : Layout := go l.indents l
where
  /-- Closes the columns of the list up to that of a block collection. -/
  go : List Indent → Layout → Layout
    | [], l => l
    | i :: rest, l => if i.block then l else go rest { l with indent := i.outer, indents := rest }

/-- Opens a block collection at the column, unless one is open there. Its token comes at the
position. -/
def roll (l : Layout) (column : Nat) (position : Nat) (t : Token) : Layout :=
  if l.inFlow then l
  else
    let l :=
      match l.indents with
      | i :: rest =>
        if l.indent ≤ (column : Int) ∧ !i.block then { l with indent := i.outer, indents := rest }
        else l
      | [] => l
    if l.indent < (column : Int) then
      { l.insert position t with indent := column, indents := ⟨l.indent, true⟩ :: l.indents }
    else l

/-- What follows stands one column to the right of the block collection at least. -/
def rollOne (l : Layout) : Layout :=
  if !l.inFlow && (l.indents.head?.map Indent.block).getD false then
    { l with indent := l.indent + 1, indents := ⟨l.indent, false⟩ :: l.indents }
  else l

/-! ## Blanks and comments -/

/-- Moves to the next token. In a block collection no tab stands in the indentation of a line with
content, and outside of flow collections a key may begin on a new line. -/
def toToken? : Nat → Layout → Option Layout
  | 0, _ => none
  | bound + 1, l =>
    match l.cursor.rest with
    | '\t' :: _ =>
      if !l.indents.isEmpty && l.cursor.fresh && (l.cursor.column : Int) < l.indent then
        match l.cursor.overTrailer? with
        | none => none
        | some c => if lineEnds c.rest then toToken? bound (l.moved c) else none
      else toToken? bound (l.moved l.cursor.afterGap)
    | ' ' :: _ => toToken? bound (l.moved l.cursor.afterGap)
    | '\n' :: _ =>
      toToken? bound ((l.moved l.cursor.afterBreak).allowKey (!l.inFlow || l.keyAllowed))
    | '#' :: _ => toToken? bound (l.moved l.cursor.toLineEnd)
    | _ => some l

/-! ## Tags, anchors and directives -/

/-- The characters of the address that a tag is. -/
def isAddressChar (c : Char) : Bool :=
  c.isAlphanum || "-#;/?:@&=+$,_.!~*'()[]%".toList.contains c

/-- The characters of the kind in a tag. -/
def isKindChar (c : Char) : Bool := isAddressChar c && !isFlowMark c && c != '!'

/-- The characters of names of anchors. -/
def isAnchorChar (c : Char) : Bool := c != '\n' && c != '\ufeff' && !isGap c && !isFlowMark c

/-- The number that two hexadecimal digits after a percent sign spell. -/
def percentByte? : List Char → Option Nat
  | '%' :: a :: b :: _ =>
    match Json.hexDigit? a, Json.hexDigit? b with
    | some a, some b => some (a * 16 + b)
    | _, _ => none
  | _ => none

/-- How many bytes a character has that begins with the byte. -/
def byteCount? (byte : Nat) : Option Nat :=
  if byte < 0x80 then some 1
  else if byte < 0xC0 then none
  else if byte < 0xE0 then some 2
  else if byte < 0xF0 then some 3
  else if byte < 0xF8 then some 4
  else none

/-- Reads the further bytes of a character and puts all of them together. -/
def percentBytes : Nat → Nat → Cursor → Option (Nat × Cursor)
  | 0, n, c => some (n, c)
  | more + 1, n, c =>
    match percentByte? c.rest with
    | some byte =>
      if 0x80 ≤ byte ∧ byte < 0xC0 then percentBytes more (n * 256 + byte) (c.skip 3) else none
    | none => none

/-- Reads a character that is written as bytes after percent signs. -/
def percentChar? (c : Cursor) : Option (Char × Cursor) :=
  match percentByte? c.rest with
  | none => none
  | some byte =>
    match byteCount? byte with
    | none => none
    | some count =>
      match percentBytes (count - 1) byte (c.skip 3) with
      | some (n, c) => (codePoint? n).map fun d => (d, c)
      | none => none

/-- Reads the characters of a class, in which bytes may be written after percent signs. -/
def address? (isChar : Char → Bool) : Nat → List Char → Cursor → Option Read
  | 0, _, _ => none
  | bound + 1, taken, c =>
    match c.rest with
    | [] => some (taken, c)
    | d :: _ =>
      if !isChar d then some (taken, c)
      else if d == '%' then
        match percentChar? c with
        | some (d, c) => address? isChar bound (d :: taken) c
        | none => none
      else address? isChar bound (d :: taken) (c.skip 1)

/-- Reads a handle: an exclamation mark, a name and another one, which a tag may lack. -/
def handle (c : Cursor) : List Char × Cursor :=
  let name := c.rest.tail.takeWhile isNameChar
  let c := c.skip (1 + name.length)
  match c.rest with
  | '!' :: _ => ('!' :: name ++ ['!'], c.skip 1)
  | _ => ('!' :: name, c)

/-- The text is a handle with both marks. -/
def isHandle (text : List Char) : Bool := 2 ≤ text.length && text.getLast? == some '!'

/-- Reads a tag that is written out between angle brackets, after the first one. -/
def verbatimTag? (c : Cursor) : Option (Token × Cursor) :=
  match address? isAddressChar (c.rest.length + 1) [] c with
  | none => none
  | some (taken, c) =>
    match c.rest with
    | '>' :: _ => some (.tag "" (String.ofList taken.reverse), c.skip 1)
    | _ => none

/-- Reads a tag: a handle with the kind behind it, or one mark with the kind. -/
def shortTag? (c : Cursor) : Option (Token × Cursor) :=
  let (marked, c) := handle c
  let marks := isHandle marked
  let taken := if marks then [] else marked.tail.reverse
  match address? isKindChar (c.rest.length + 1) taken c with
  | none => none
  | some (taken, c) =>
    if marks then
      if taken.isEmpty then none
      else some (.tag (String.ofList marked) (String.ofList taken.reverse), c)
    else if taken.isEmpty then some (.tag "" "!", c)
    else some (.tag "!" (String.ofList taken.reverse), c)

/-- Reads a tag at its first mark. A blank follows it, or a mark of flow collections in one. -/
def tag? (inFlow : Bool) (c : Cursor) : Option (Token × Cursor) :=
  let found :=
    match c.rest with
    | _ :: '<' :: _ => verbatimTag? (c.skip 2)
    | _ => shortTag? c
  match found with
  | none => none
  | some (t, c) =>
    if blankNext c.rest || (inFlow && (c.rest.head?.map isFlowMark).getD false) then some (t, c)
    else none

/-- Reads the name of an anchor after its mark. -/
def anchorName? (c : Cursor) : Option (String × Cursor) :=
  let name := c.rest.takeWhile isAnchorChar
  if name.isEmpty then none else some (String.ofList name, c.skip name.length)

/-- Reads a number of at most nine digits. -/
def versionNumber? (c : Cursor) : Option Cursor :=
  let digits := c.rest.takeWhile Char.isDigit
  if digits.isEmpty || 9 < digits.length then none else some (c.skip digits.length)

/-- Reads a version: two numbers with a point between them. -/
def version? (c : Cursor) : Option (Token × Cursor) :=
  match versionNumber? c with
  | none => none
  | some c =>
    match c.rest with
    | '.' :: _ => (versionNumber? (c.skip 1)).map fun c => (.version, c)
    | _ => none

/-- Reads what the handle of a tag stands for: an address that begins like a tag does. -/
def tagHandle? (c : Cursor) : Option (Token × Cursor) :=
  match c.rest with
  | '!' :: _ =>
    let (marked, c) := handle c
    if !(isHandle marked || marked == ['!']) then none
    else
      let c := c.overGaps
      match c.rest with
      | [] => none
      | d :: _ =>
        if d != '!' && !isKindChar d then none
        else
          match address? isAddressChar (c.rest.length + 1) [] c with
          | none => none
          | some (taken, c) =>
            if blankNext c.rest then
              some (.tagHandle (String.ofList marked) (String.ofList taken.reverse), c)
            else none
  | _ => none

/-- Reads a directive after its percent sign, to the end of its line. A directive that is not known
gives no meaning to no handle. -/
def directive? (c : Cursor) : Option (Token × Cursor) :=
  let name := c.rest.takeWhile isNameChar
  let c := c.skip name.length
  if name.isEmpty || !blankNext c.rest then none
  else
    let found :=
      if name == "YAML".toList then version? c.overGaps
      else if name == "TAG".toList then tagHandle? c.overGaps
      else some (.tagHandle "" "", c.toLineEnd)
    match found with
    | none => none
    | some (t, c) =>
      match c.overTrailer? with
      | none => none
      | some c =>
        if c.rest.isEmpty then some (t, c)
        else if lineEnds c.rest then some (t, c.afterBreak)
        else none

/-! ## Tokens -/

/-- Leaves everything that is open. -/
def leaveAll? (l : Layout) : Option Layout := (l.unroll (-1)).dropKey?.map (·.allowKey false)

/-- Reads a directive. -/
def readDirective? (l : Layout) : Option Layout :=
  match l.leaveAll?, directive? (l.cursor.skip 1) with
  | some l, some (t, c) => some ((l.moved c).push t)
  | _, _ => none

/-- Reads a mark that begins or ends a document. Nothing follows the mark at the end. -/
def readMark? (l : Layout) (t : Token) : Option Layout :=
  match l.leaveAll? with
  | none => none
  | some l =>
    let l := (l.moved (l.cursor.skip 3)).push t
    if t = Token.documentEnd then
      match l.cursor.overTrailer? with
      | some c => if lineEnds c.rest then some (l.moved c) else none
      | none => none
    else some l

/-- Reads the mark at the beginning of a flow collection. -/
def openFlow? (l : Layout) (t : Token) : Option Layout :=
  let l := l.noteKey.rollOne
  if 255 ≤ l.outerKeys.length then none
  else
    let l := { l with
      key := .never
      outerKeys := l.key :: l.outerKeys
      keyAllowed := true
      inMapping := l.inMapping || t = Token.flowMapping
      implicitMappings :=
        if t = Token.flowMapping then l.implicitMappings else false :: l.implicitMappings }
    (l.cursor.skip 1).overTrailer?.map fun c => (l.moved c).push t

/-- The element of a flow sequence ends, and with it a mapping without marks. -/
def endImplicit (l : Layout) : Layout :=
  match l.implicitMappings with
  | true :: rest =>
    ({ l with inMapping := false, implicitMappings := false :: rest }).push .flowMappingEnd
  | _ => l

/-- Reads the mark at the end of a flow collection. -/
def closeFlow? (l : Layout) (t : Token) : Option Layout :=
  match l.dropKey? with
  | none => none
  | some l =>
    let l :=
      match l.outerKeys with
      | k :: rest => { l with key := k, outerKeys := rest, keyAllowed := false }
      | [] => { l with keyAllowed := false }
    let l :=
      if t = Token.flowSequenceEnd then
        let l := l.endImplicit
        { l with implicitMappings := l.implicitMappings.tail }
      else l
    match (l.cursor.skip 1).overTrailer? with
    | none => none
    | some c =>
      let l := (l.moved c).push t
      some (if l.inFlow then { l with adjacentAt := c.index } else l)

/-- Reads the comma of a flow collection. -/
def separateFlow? (l : Layout) : Option Layout :=
  match l.dropKey?, (l.cursor.skip 1).overTrailer? with
  | some l, some c => some (((l.allowKey true).endImplicit.moved c).push .flowEntry)
  | _, _ => none

/-- Reads the dash before an element of a block sequence. Behind tabs another dash may not
follow. -/
def readEntry? (l : Layout) : Option Layout :=
  if l.inFlow || !l.keyAllowed then none
  else
    let column := l.cursor.column
    let l := (l.moved (l.cursor.skip 1)).roll column l.tokens.size .blockSequence
    let tabs := (l.cursor.rest.takeWhile isGap).contains '\t'
    match l.cursor.overTrailer? with
    | none => none
    | some c =>
      match tabs, c.rest with
      | true, '-' :: rest => if blankNext rest then none else finish (l.moved c)
      | _, _ => finish (l.moved c)
where
  /-- What follows the dash begins here. -/
  finish (l : Layout) : Option Layout :=
    let turns := !l.cursor.rest.isEmpty &&
      (lineEnds l.cursor.rest || (l.cursor.rest.head?.map isFlowMark).getD false)
    ((if turns then l.rollOne else l).dropKey?).map fun l => (l.allowKey true).push .blockEntry

/-- Moves over spaces, comments and line breaks behind the question mark of a key, of which there is
at least one. -/
def overKeyBlanks? : Nat → Bool → Layout → Option Layout
  | 0, _, _ => none
  | bound + 1, found, l =>
    match l.cursor.rest with
    | ' ' :: _ => overKeyBlanks? bound true (l.moved l.cursor.afterGap)
    | '\n' :: _ =>
      overKeyBlanks? bound true ((l.moved l.cursor.afterBreak).allowKey (!l.inFlow || l.keyAllowed))
    | '#' :: _ => overKeyBlanks? bound found (l.moved l.cursor.toLineEnd)
    | _ => if found then some l else none

/-- Reads the question mark before a key. -/
def readKey? (l : Layout) : Option Layout :=
  if !l.inFlow && !l.keyAllowed then none
  else
    let l :=
      if l.inFlow then { l with inMapping := true }
      else l.roll l.cursor.column l.tokens.size .blockMapping
    match l.dropKey? with
    | none => none
    | some l =>
      let l := (l.allowKey (!l.inFlow)).moved (l.cursor.skip 1)
      match overKeyBlanks? (l.cursor.rest.length + 1) false l with
      | none => none
      | some l => if l.cursor.rest.head? == some '\t' then none else some (l.push .key)

/-- Moves over the colon before a value. Behind a tab alone no name or number may follow. -/
def overColon? (c : Cursor) : Option Cursor :=
  let c := c.skip 1
  match c.rest with
  | '\t' :: _ =>
    match c.overTrailer? with
    | none => none
    | some after =>
      let spaced := (c.rest.takeWhile isGap).contains ' '
      if !spaced && (after.rest.head?.map isNameChar).getD false then none else some after
  | _ => some c

/-- Reads the colon before a value. -/
def readValue? (l : Layout) : Option Layout :=
  let k := l.key
  let implicit := !l.implicitMappings.isEmpty && !l.inMapping
  let line := l.cursor.line
  let column := l.cursor.column
  match overColon? l.cursor with
  | none => none
  | some c =>
    let l := l.moved c
    let l := if implicit then { l with implicitMappings := true :: l.implicitMappings.tail } else l
    if k.possible then
      if implicit && k.line < line then none
      else
        let l := l.insert k.position .key
        let l := if implicit then l.insert k.position .flowMapping else l
        let l := (l.roll k.column k.position .blockMapping).rollOne
        some (({ l with key := { l.key with possible := false } }.allowKey false).push .value)
    else
      let l := if implicit then l.push .flowMapping else l
      if l.inFlow then some ((l.rollOne.allowKey false).push .value)
      else if !l.keyAllowed then none
      else
        let l := (l.roll column l.tokens.size .blockMapping).rollOne
        some ((l.allowKey true).push .value)

/-- Reads a colon in a flow collection without a blank behind it. -/
def readFlowValue? (l : Layout) : Option Layout :=
  match l.cursor.rest with
  | _ :: d :: _ =>
    if l.cursor.index != l.adjacentAt && (d == '[' || d == '\x7b') then none else l.readValue?
  | _ => l.readValue?

/-- Reads a quoted scalar. On its line only a comment may follow, or the colon that makes it a key,
and in a flow collection the marks of such collections. -/
def readQuoted? (l : Layout) (mark : Char) : Option Layout :=
  let line := l.cursor.line
  let l := l.noteNode
  let start := l.cursor.skip 1
  match quotedAfter l.indent mark (start.rest.length + 1) [] start with
  | none => none
  | some (taken, c) =>
    match c.overTrailer? with
    | none => none
    | some c =>
      let ends :=
        match c.rest with
        | [] => true
        | '\n' :: _ => true
        | ':' :: _ => l.inFlow || c.line == line
        | d :: _ => l.inFlow && (d == ',' || d == '\x7d' || d == ']')
      if ends then
        (toToken? (c.rest.length + 1) (l.moved c)).map fun l =>
          ({ l with adjacentAt := l.cursor.index }).push
            (.scalar false (String.ofList taken.reverse))
      else none

/-- Reads a plain scalar. A key may begin behind it when it ends at the beginning of a line. -/
def readPlain? (l : Layout) : Option Layout :=
  let l := l.noteNode.unrollToBlock
  if l.inFlow && (l.cursor.column : Int) < l.indent + 1 then none
  else
    (plain? (l.indent + 1) l.inFlow l.cursor).map fun (taken, c) =>
      ((l.moved c).allowKey (c.fresh || l.keyAllowed)).push
        (.scalar true (String.ofList taken.reverse))

/-- Reads a block, behind which a key may begin. -/
def readBlock? (l : Layout) (literal : Bool) : Option Layout :=
  let l := (l.noteKey.allowKey true).unrollToBlock
  (block? l.indent literal (l.cursor.skip 1)).map fun (taken, c) =>
    (l.moved c).push (.scalar false (String.ofList taken.reverse))

/-- Reads the name of a node, or the name that stands for one. -/
def readAnchor? (l : Layout) (make : String → Token) : Option Layout :=
  (anchorName? (l.cursor.skip 1)).map fun (name, c) => (l.noteNode.moved c).push (make name)

/-- Reads a tag. -/
def readTag? (l : Layout) : Option Layout :=
  (tag? l.inFlow l.cursor).map fun (t, c) => (l.noteNode.moved c).push t

/-- Reads the token that the character at the cursor begins. -/
def readToken? (l : Layout) (c : Char) (rest : List Char) : Option Layout :=
  if c == '[' then l.openFlow? .flowSequence
  else if c == '\x7b' then l.openFlow? .flowMapping
  else if c == ']' then l.closeFlow? .flowSequenceEnd
  else if c == '\x7d' then l.closeFlow? .flowMappingEnd
  else if c == ',' then l.separateFlow?
  else if c == '-' && blankNext rest then l.readEntry?
  else if c == '?' && blankNext rest then l.readKey?
  else if c == ':' && blankNext rest then l.readValue?
  else if c == ':' && l.inFlow && ((rest.head?.map isFlowMark).getD false ||
      l.cursor.index == l.adjacentAt) then l.readFlowValue?
  else if c == '*' then l.readAnchor? .reference
  else if c == '&' then l.readAnchor? .anchor
  else if c == '!' then l.readTag?
  else if c == '|' && !l.inFlow then l.readBlock? true
  else if c == '>' && !l.inFlow then l.readBlock? false
  else if c == '\'' || c == '"' then l.readQuoted? c
  else if c == '%' || c == '@' || c == '\x60' then none
  else l.readPlain?

/-- Reads the next token at the cursor, which is not at the end. -/
def readNext? (l : Layout) (c : Char) (rest : List Char) : Option Layout :=
  if l.cursor.column == 0 && c == '%' then l.readDirective?
  else if l.cursor.column == 0 && markNext '-' (c :: rest) then l.readMark? .documentStart
  else if l.cursor.column == 0 && markNext '.' (c :: rest) then l.readMark? .documentEnd
  else if (l.cursor.column : Int) < l.indent then none
  else l.readToken? c rest

/-- The tokens of a text that has been read to its end. No key may be required. -/
def finish? (l : Layout) : Option (List Token) :=
  if (l.key :: l.outerKeys).any fun k => k.possible && k.required then none
  else some (l.unroll (-1)).tokens.toList

/-- Reads the tokens that follow, of which each takes a character at least. -/
def readAll? : Nat → Layout → Option (List Token)
  | 0, _ => none
  | bound + 1, l =>
    match (toToken? (l.cursor.rest.length + 1) l).bind dropStale? with
    | none => none
    | some l =>
      let l := l.unroll l.cursor.column
      match l.cursor.rest with
      | [] => l.finish?
      | c :: rest =>
        match l.readNext? c rest with
        | some l => readAll? bound l
        | none => none

end Layout

/-- The tokens of a text, unless its layout is wrong. -/
def tokens? (text : List Char) : Option (List Token) :=
  let l := Layout.start text
  l.readAll? (l.cursor.rest.length + 1)

end RecordFilter.Yaml
