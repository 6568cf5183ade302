import RecordFilter.Yaml.Cursor
import RecordFilter.Json.Reader

/-!
# Scalars of YAML as they are written

A scalar stands between single quotes, where a quote is written twice; between double quotes, where
a backslash begins an escape; on its own, as a plain scalar; or in a block of lines below its
header. Within quoted and plain scalars a line break is folded: one break is a space, and of more
breaks all but the first stay. A block is literal and keeps its breaks, or folded.

Each reader starts at a cursor and answers the text with the cursor behind the scalar. The text is
collected last character first.
-/

namespace RecordFilter.Yaml

/-- What has been read of a scalar: a text, and the place behind it. -/
abbrev Read := List Char × Cursor

/-! ## Folding -/

/-- What lies between two characters of a scalar that are not blank. -/
structure Space where
  /-- The gaps, the last one first, as long as no break has been met. -/
  gaps : List Char
  /-- The number of line breaks. -/
  breaks : Nat

namespace Space

/-- Nothing lies between. -/
def empty : Space := ⟨[], 0⟩

/-- One more gap. Gaps at the beginning of a line do not count. -/
def gap (s : Space) (c : Char) : Space := if s.breaks = 0 then { s with gaps := c :: s.gaps } else s

/-- One more line break. Gaps at the end of a line do not count. -/
def lineBreak (s : Space) : Space := ⟨[], s.breaks + 1⟩

/-- What is left of it in the text, the last character first. -/
def folded (s : Space) : List Char :=
  match s.breaks with
  | 0 => s.gaps
  | 1 => [' ']
  | more + 2 => List.replicate (more + 1) '\n'

end Space

/-! ## Quoted scalars -/

/-- The character that a letter after a backslash stands for. -/
def escapeLetter? : Char → Option Char
  | '0' => some '\x00'
  | 'a' => some '\x07'
  | 'b' => some '\x08'
  | 't' => some '\t'
  | '\t' => some '\t'
  | 'n' => some '\n'
  | 'v' => some '\x0b'
  | 'f' => some '\x0c'
  | 'r' => some '\r'
  | 'e' => some '\x1b'
  | ' ' => some ' '
  | '"' => some '"'
  | '/' => some '/'
  | '\\' => some '\\'
  | 'N' => some '\u0085'
  | '_' => some '\u00a0'
  | 'L' => some '\u2028'
  | 'P' => some '\u2029'
  | _ => none

/-- How many hexadecimal digits follow the letter after a backslash. -/
def escapeDigits? : Char → Option Nat
  | 'x' => some 2
  | 'u' => some 4
  | 'U' => some 8
  | _ => none

/-- The character of a code point, if it has one. -/
def codePoint? (n : Nat) : Option Char :=
  if n < 0xD800 ∨ (0xE000 ≤ n ∧ n < 0x110000) then some (Char.ofNat n) else none

/-- The character with the code point that the digits spell. -/
def spelledChar? (digits : List Char) : Option Char :=
  (digits.mapM Json.hexDigit?).bind fun ds => codePoint? (ds.foldl (fun n d => n * 16 + d) 0)

/-- Reads an escape after its backslash. -/
def escape? (c : Cursor) : Option (Char × Cursor) :=
  match c.rest with
  | [] => none
  | letter :: rest =>
    match escapeLetter? letter, escapeDigits? letter with
    | some d, _ => some (d, c.skip 1)
    | none, some digits =>
      if rest.length < digits then none
      else (spelledChar? (rest.take digits)).map fun d => (d, c.skip (1 + digits))
    | none, none => none

/-- Reads the characters of a quoted scalar up to a blank or the closing mark. The answer also says
whether a backslash has joined the line to the next one. -/
def quotedRun (mark : Char) : Nat → List Char → Cursor → Option (List Char × Cursor × Bool)
  | 0, _, _ => none
  | bound + 1, taken, c =>
    if blankNext c.rest then some (taken, c, false)
    else if mark == '\'' then
      match c.rest with
      | '\'' :: '\'' :: _ => quotedRun mark bound ('\'' :: taken) (c.skip 2)
      | '\'' :: _ => some (taken, c, false)
      | d :: _ => quotedRun mark bound (d :: taken) (c.skip 1)
      | [] => some (taken, c, false)
    else
      match c.rest with
      | '"' :: _ => some (taken, c, false)
      | '\\' :: '\n' :: _ => some (taken, (c.skip 1).afterBreak, true)
      | '\\' :: _ =>
        match escape? (c.skip 1) with
        | some (d, c) => quotedRun mark bound (d :: taken) c
        | none => none
      | d :: _ => quotedRun mark bound (d :: taken) (c.skip 1)
      | [] => some (taken, c, false)

/-- Reads the blanks within a quoted scalar. On a line of its own a tab may not stand before the
column `indent`. -/
def quotedSpace (indent : Int) : Nat → Space → Cursor → Option (Space × Cursor)
  | 0, _, _ => none
  | bound + 1, s, c =>
    match c.rest with
    | ' ' :: _ => quotedSpace indent bound (s.gap ' ') c.afterGap
    | '\t' :: _ =>
      if s.breaks ≠ 0 ∧ (c.column : Int) < indent then none
      else quotedSpace indent bound (s.gap '\t') c.afterGap
    | '\n' :: _ => quotedSpace indent bound s.lineBreak c.afterBreak
    | _ => some (s, c)

/-- Reads a quoted scalar after its opening mark. Its lines stand at the column `indent` at least,
and no mark of documents may stand in it. Of the breaks after a backslash all but the first stay. -/
def quotedAfter (indent : Int) (mark : Char) : Nat → List Char → Cursor → Option Read
  | 0, _, _ => none
  | bound + 1, taken, c =>
    if c.rest.isEmpty || (c.column == 0 && documentMarkNext c.rest) then none
    else if (c.column : Int) < indent then none
    else
      match quotedRun mark (c.rest.length + 1) taken c with
      | none => none
      | some (taken, c, joined) =>
        if c.rest.head? == some mark then some (taken, c.skip 1)
        else
          match quotedSpace indent (c.rest.length + 1) (if joined then ⟨[], 1⟩ else .empty) c with
          | none => none
          | some (s, c) =>
            let space := if joined then List.replicate (s.breaks - 1) '\n' else s.folded
            quotedAfter indent mark bound (space ++ taken) c

/-! ## Plain scalars -/

/-- The character that comes next may stand in a plain scalar. A colon may unless a blank follows
it; in a flow collection no mark of such collections may, nor a colon before one. -/
def plainNext (inFlow : Bool) : List Char → Bool
  | [] => false
  | ':' :: rest => !blankNext rest && !(inFlow && (rest.head?.map isFlowMark).getD false)
  | c :: _ => !(inFlow && isFlowMark c)

/-- Reads the characters of a plain scalar up to a blank or a character that may not stand in it. -/
def plainRun (inFlow : Bool) : Nat → List Char → Cursor → Read
  | 0, taken, c => (taken, c)
  | bound + 1, taken, c =>
    match c.rest with
    | [] => (taken, c)
    | d :: _ =>
      if !blankNext c.rest && plainNext inFlow c.rest then
        plainRun inFlow bound (d :: taken) (c.skip 1)
      else (taken, c)

/-- Reads the blanks within or behind a plain scalar. A line that holds more than blanks may not
have a tab before the column `indent`. -/
def plainSpace (indent : Int) : Nat → Space → Cursor → Option (Space × Cursor)
  | 0, _, _ => none
  | bound + 1, s, c =>
    match c.rest with
    | ' ' :: _ => plainSpace indent bound (s.gap ' ') c.afterGap
    | '\t' :: _ =>
      if c.fresh ∧ (c.column : Int) < indent then
        match c.overTrailer? with
        | none => none
        | some c => if lineEnds c.rest then plainSpace indent bound s c else none
      else plainSpace indent bound (s.gap '\t') c.afterGap
    | '\n' :: _ => plainSpace indent bound s.lineBreak c.afterBreak
    | _ => some (s, c)

/-- Reads a plain scalar, of which some text and the space behind it have been read. It ends before
a comment and a mark of documents; outside of flow collections its lines stand at the column
`indent` at least. -/
def plainAfter (indent : Int) (inFlow : Bool) :
    Nat → List Char → Space → Cursor → Option Read
  | 0, _, _, _ => none
  | bound + 1, taken, s, c =>
    if c.rest.head? == some '#' || (c.column == 0 && documentMarkNext c.rest) then some (taken, c)
    else if inFlow && c.rest.head? == some '-' &&
        (c.rest.tail.head?.map isFlowMark).getD false then none
    else
      let starts := !blankNext c.rest && plainNext inFlow c.rest
      let (taken, c) : Read :=
        if starts then plainRun inFlow c.rest.length (s.folded ++ taken) c else (taken, c)
      let s := if starts then .empty else s
      if c.rest.isEmpty || !blankNext c.rest then some (taken, c)
      else
        match plainSpace indent (c.rest.length + 1) s c with
        | none => none
        | some (s, c) =>
          if !inFlow && (c.column : Int) < indent then some (taken, c)
          else plainAfter indent inFlow bound taken s c

/-- Reads a plain scalar, which is not empty. -/
def plain? (indent : Int) (inFlow : Bool) (c : Cursor) : Option Read :=
  match plainAfter indent inFlow (c.rest.length + 2) [] .empty c with
  | some ([], _) => none
  | found => found

/-! ## Blocks -/

/-- What becomes of the line breaks at the end of a block. -/
inductive Chomping where
  /-- One stays. -/
  | clip
  /-- None stays. -/
  | strip
  /-- All stay. -/
  | keep
  deriving DecidableEq

/-- The treatment that a sign in the header asks for. -/
def chomping? : Char → Option Chomping
  | '+' => some .keep
  | '-' => some .strip
  | _ => none

/-- The header of a block: its treatment of breaks, and how far it is indented, if it says so. -/
structure Header where
  chomping : Chomping
  increment : Nat

/-- Reads the digit of a header. It is not zero. -/
def headerDigit? (c : Cursor) : Option (Nat × Cursor) :=
  match c.rest with
  | '0' :: _ => none
  | d :: _ => if d.isDigit then some (d.toNat - '0'.toNat, c.skip 1) else some (0, c)
  | [] => some (0, c)

/-- Reads the sign of a header. -/
def headerSign (c : Cursor) : Chomping × Cursor :=
  match c.rest.head?.bind chomping? with
  | some chomping => (chomping, c.skip 1)
  | none => (.clip, c)

/-- Reads a header after its first character: a sign and a digit in either order. -/
def header? (c : Cursor) : Option (Header × Cursor) :=
  if (c.rest.head?.bind chomping?).isSome then
    let (chomping, c) := headerSign c
    (headerDigit? c).map fun (n, c) => (⟨chomping, n⟩, c)
  else
    match headerDigit? c with
    | none => none
    | some (0, c) => some (⟨.clip, 0⟩, c)
    | some (n, c) =>
      let (chomping, c) := headerSign c
      some (⟨chomping, n⟩, c)

/-- Reads the lines without content and the spaces up to the column `indent` before the next line
that has some. The answer is the number of line breaks read. -/
def blockSpace (indent : Nat) : Nat → Nat → Cursor → Nat × Cursor
  | 0, breaks, c => (breaks, c)
  | bound + 1, breaks, c =>
    match c.rest with
    | ' ' :: _ =>
      if c.column < indent then blockSpace indent bound breaks c.afterGap else (breaks, c)
    | '\n' :: _ => blockSpace indent bound (breaks + 1) c.afterBreak
    | _ => (breaks, c)

/-- Reads all spaces before the first line of a block. The answer is the number of line breaks read
and the widest line. -/
def blockIndent : Nat → Nat → Nat → Cursor → Nat × Nat × Cursor
  | 0, breaks, widest, c => (breaks, widest, c)
  | bound + 1, breaks, widest, c =>
    match c.rest with
    | ' ' :: _ => blockIndent bound breaks widest c.afterGap
    | '\n' :: _ => blockIndent bound (breaks + 1) (max widest c.column) c.afterBreak
    | _ => (breaks, max widest c.column, c)

/-- What stands between two lines of a block: a folded block joins two lines by a space when a
single break separates them and neither begins with a gap. -/
def blockJoint (literal lastGap gap : Bool) (leading trailing : Nat) : List Char :=
  if !literal && leading != 0 && !lastGap && !gap then
    if trailing = 0 then [' '] else List.replicate trailing '\n'
  else List.replicate (leading + trailing) '\n'

/-- What has been read of a block: its text, the breaks behind it, whether its last line begins
with a gap, and the place. -/
structure Block where
  taken : List Char
  leading : Nat
  trailing : Nat
  lastGap : Bool
  cursor : Cursor

/-- Reads the lines of a block. -/
def blockLines (literal : Bool) (indent : Nat) : Nat → Block → Block
  | 0, b => b
  | bound + 1, b =>
    let c := b.cursor
    if c.column != indent || c.rest.isEmpty || (indent == 0 && markNext '.' c.rest) then b
    else
      let gap := gapNext c.rest
      let line := c.rest.takeWhile (· != '\n')
      let taken := line.reverse ++ blockJoint literal b.lastGap gap b.leading b.trailing ++ b.taken
      let c := c.toLineEnd
      if c.rest.isEmpty then ⟨taken, 0, 0, gap, c⟩
      else
        let (trailing, c) := blockSpace indent c.rest.length 0 c.afterBreak
        blockLines literal indent bound ⟨taken, 1, trailing, gap, c⟩

/-- The end of a block, whose lines stand at the column `indent`. A last line without a break gets
one, unless breaks are stripped. -/
def blockEnd (chomping : Chomping) (indent : Nat) (b : Block) : List Char :=
  let closing := if b.cursor.rest.isEmpty && max indent 1 ≤ b.cursor.column then 1 else 0
  match chomping with
  | .strip => b.taken
  | .clip => List.replicate (b.leading + closing) '\n' ++ b.taken
  | .keep => List.replicate (b.leading + closing + b.trailing) '\n' ++ b.taken

/-- A block without lines at the end of the text: the break after its header stays, or the breaks
after that. -/
def blockVoid (chomping : Chomping) (headerBreak : Bool) (breaks : Nat) : List Char :=
  match chomping with
  | .strip => []
  | .clip => if headerBreak then ['\n'] else []
  | .keep =>
    if breaks = 0 then (if headerBreak then ['\n'] else []) else List.replicate breaks '\n'

/-- Reads a block after the first character of its header. It belongs to something at the column
`indent`, which is `-1` for a whole document. -/
def block? (indent : Int) (literal : Bool) (c : Cursor) : Option Read :=
  match header? c with
  | none => none
  | some (header, c) =>
    match c.overTrailer? with
    | none => none
    | some c =>
      let headerBreak := !c.rest.isEmpty
      let content := if headerBreak then c.afterBreak else c
      if !lineEnds c.rest || content.rest.head? == some '\t' then none
      else
        let bound := content.rest.length
        let least := (indent + 1).toNat
        let (breaks, column, c) : Nat × Nat × Cursor :=
          if header.increment = 0 then
            let (breaks, widest, c) := blockIndent bound 0 0 content
            (breaks, max widest least, c)
          else
            let column := (max indent 0).toNat + header.increment
            let (breaks, c) := blockSpace column bound 0 content
            (breaks, column, c)
        if c.rest.isEmpty then some (blockVoid header.chomping headerBreak breaks, c)
        else if c.column < column ∧ indent < c.column then none
        else
          let b := blockLines literal column (bound + 1) ⟨[], 0, breaks, false, c⟩
          some (blockEnd header.chomping column b, b.cursor)

end RecordFilter.Yaml
