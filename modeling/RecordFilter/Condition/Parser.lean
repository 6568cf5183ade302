import RecordFilter.Condition.Basic
import RecordFilter.Condition.Error

/-!
# Reading conditions

An expression is a chain of conjunctions joined by `or`, a conjunction is a chain of operands
joined by `and`, and an operand is an expression in parentheses or a relation: a field, a
comparison, which may be missing and then is `eq`, and a literal. Both chains group to the left.

A reader takes what it reads off the front of the tokens and counts the relations. How many more
parentheses may be opened is the argument on which the reader of expressions recurses; a chain
recurses on a bound for the number of connectives, which the number of tokens left is.

* `expression_eq`: an expression is a disjunction in whose groups one level less is left;
* `parse_blank`: a blank text has no condition.
-/

namespace RecordFilter

namespace Condition

/-- Where a reader stands: the tokens still to be read, and the number of relations read. -/
structure Position where
  rest : List Token
  relations : Nat

/-- Reads a condition off the front of the tokens. -/
abbrev Reader := Position → Except ParseError (Condition × Position)

/-- The token that comes next; past the last one it is the end. -/
def upcoming (tokens : List Token) : Token := tokens.headD .endOfInput

/-- Reads a relation after its field. -/
def relationOf (field : String) : Reader := fun p =>
  if p.relations < maxRelations then
    let (comparison, rest) : Comparison × List Token :=
      match p.rest with
      | .comparison c :: ts => (c, ts)
      | ts => (.eq, ts)
    match rest with
    | .literal v :: ts => .ok (.relation comparison field v, ⟨ts, p.relations + 1⟩)
    | ts => .error (.missingValue field (upcoming ts))
  else .error .tooManyRelations

/-- Reads a relation or a group, with a reader for what stands in a group. -/
def operand (group : Reader) : Reader := fun p =>
  match p.rest with
  | .openGroup :: ts =>
    match group ⟨ts, p.relations⟩ with
    | .error e => .error e
    | .ok (c, q) =>
      match q.rest with
      | .closeGroup :: ts => .ok (c, ⟨ts, q.relations⟩)
      | ts => .error (.unclosedGroup (upcoming ts))
  | .field name :: ts => relationOf name ⟨ts, p.relations⟩
  | ts => .error (.unexpectedToken (upcoming ts))

/-- Reads the rest of a chain, at most `bound` connectives, after what has been read of it. -/
def chainAfter (connective : Connective) (item : Reader) :
    Nat → Condition → Reader
  | 0, left, p => .ok (left, p)
  | bound + 1, left, p =>
    match p.rest with
    | .connective c :: ts =>
      if c = connective then
        match item ⟨ts, p.relations⟩ with
        | .error e => .error e
        | .ok (right, q) => chainAfter connective item bound (.join connective left right) q
      else .ok (left, p)
    | _ => .ok (left, p)

/-- Reads a chain of one or more items joined by the connective; it groups to the left. -/
def chain (connective : Connective) (item : Reader) : Reader := fun p =>
  match item p with
  | .error e => .error e
  | .ok (left, q) => chainAfter connective item q.rest.length left q

/-- Reads a conjunction. -/
def conjunction (group : Reader) : Reader := chain .and (operand group)

/-- Reads a disjunction of conjunctions. -/
def disjunction (group : Reader) : Reader := chain .or (conjunction group)

/-- Refuses to read a group. -/
def tooDeep : Reader := fun _ => .error .nestingTooDeep

/-- Reads an expression in which at most `levels` parentheses are open at once. -/
def expression : (levels : Nat) → Reader
  | 0 => disjunction tooDeep
  | levels + 1 => disjunction (expression levels)

/-- Reads what stands in a group, when at most `levels` parentheses may be opened from outside. -/
def inGroup : (levels : Nat) → Reader
  | 0 => tooDeep
  | levels + 1 => expression levels

theorem expression_eq (levels : Nat) : expression levels = disjunction (inGroup levels) := by
  cases levels <;> rfl

/-- The condition that the tokens spell, or none if there are no tokens before the end. -/
def ofTokens (tokens : List Token) : Except ParseError (Option Condition) :=
  if upcoming tokens = .endOfInput then .ok none
  else
    match expression maxNesting ⟨tokens, 0⟩ with
    | .error e => .error e
    | .ok (c, p) =>
      if upcoming p.rest = .endOfInput then .ok (some c)
      else .error (.trailingInput (upcoming p.rest))

/-- The condition that the text spells, or none if the text is blank. A stray character is
reported before anything else. -/
def parse (ignoreCase : Bool) (text : String) : Except ParseError (Option Condition) :=
  let list := TokenList.ofText text.toList ignoreCase
  match list.stray with
  | some stray => .error (.unexpectedCharacter stray)
  | none => ofTokens list.tokens

theorem parse_blank {text : String} (h : Text.isBlankText text.toList = true)
    (ignoreCase : Bool) : parse ignoreCase text = .ok none := by
  simp [parse, TokenList.ofText_blank h, ofTokens, upcoming]

end Condition

end RecordFilter
