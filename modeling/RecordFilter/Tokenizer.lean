import RecordFilter.Lexeme

/-!
# The tokenizer

A tokenizer stands somewhere in the text of an expression and hands out one token at a time. Its
position is the part of the text that is still to be read. Reading never fails: a character that
begins no lexeme is noted as stray, and from then on the text counts as read. `nextToken` answers
`endOfInput` as often as it is asked after the end; `next` answers it once and nothing after it.

* `ofText_blank`: a blank text has no token but the end.
-/

namespace RecordFilter

/-- A character that begins no lexeme, and the number of bytes before it. -/
structure StrayChar where
  offset : Nat
  char : Char
  deriving DecidableEq

/-- A position in the text of an expression. -/
structure Tokenizer where
  /-- The whole text. -/
  source : List Char
  /-- Keywords are recognised in any case. -/
  ignoreCase : Bool
  /-- The text still to be read. -/
  rest : List Char
  /-- The last token was a field or a comparison, so that a plain word is a literal. -/
  awaitsLiteral : Bool
  /-- The character at which reading stopped, if it did. -/
  stray : Option StrayChar
  /-- The end has been handed out by `next`. -/
  finished : Bool

/-- All the tokens of a text, and the character that cut them short, if one did. -/
structure TokenList where
  tokens : List Token
  stray : Option StrayChar

namespace Tokenizer

/-- The beginning of the text. -/
def ofText (source : List Char) (ignoreCase : Bool) : Tokenizer where
  source := source
  ignoreCase := ignoreCase
  rest := source
  awaitsLiteral := false
  stray := none
  finished := false

/-- Back to the beginning of the text. -/
def reset (t : Tokenizer) : Tokenizer := ofText t.source t.ignoreCase

/-- The number of bytes before the text still to be read. -/
def cursor (t : Tokenizer) : Nat := Text.byteLength t.source - Text.byteLength t.rest

/-- Everything counts as read. -/
def atEnd (t : Tokenizer) : Tokenizer := { t with rest := [] }

/-- Reading goes on after a token. -/
def after (t : Tokenizer) (token : Token) (rest : List Char) : Tokenizer :=
  { t with rest := rest, awaitsLiteral := token.awaitsLiteral }

/-- Reading stopped at a character, with the text after it still to be read. -/
def stoppedAt (t : Tokenizer) (c : Char) (rest : List Char) : Tokenizer :=
  { t.atEnd with
    stray := some ⟨Text.byteLength t.source - Text.byteLength (c :: rest), c⟩ }

/-- The next token: `endOfInput` when only blanks are left or a stray character has been met. -/
def nextToken (t : Tokenizer) : Token × Tokenizer :=
  if t.stray.isSome then (.endOfInput, t.atEnd)
  else
    match Text.trimLeft t.rest with
    | [] => (.endOfInput, t.atEnd)
    | c :: text =>
      match Lexeme.read? (c :: text) with
      | none => (.endOfInput, t.stoppedAt c text)
      | some (lexeme, rest) =>
        let token := lexeme.toToken t.ignoreCase t.awaitsLiteral
        (token, t.after token rest)

/-- The next token, as long as the end has not been handed out. -/
def next (t : Tokenizer) : Option Token × Tokenizer :=
  if t.finished then (none, t)
  else
    let (token, t') := t.nextToken
    (some token, if token = .endOfInput then { t' with finished := true } else t')

/-- The tokens that `next` hands out until it has no more, at most `bound` of them, after those
already `taken` (the last one first). -/
def take : Nat → List Token → Tokenizer → List Token × Tokenizer
  | 0, taken, t => (taken.reverse, t)
  | bound + 1, taken, t =>
    match t.next with
    | (none, t') => (taken.reverse, t')
    | (some token, t') => take bound (token :: taken) t'

/-- All the tokens that `next` still has to hand out. Each but the end takes a character. -/
def collect (t : Tokenizer) : List Token × Tokenizer := take (t.rest.length + 1) [] t

/-- All the tokens from here on, and the stray character that ends them, if any. -/
def tokenize (t : Tokenizer) : TokenList :=
  let (tokens, t') := t.collect
  ⟨tokens, t'.stray⟩

end Tokenizer

namespace TokenList

/-- The tokens of a text. -/
def ofText (text : List Char) (ignoreCase : Bool) : TokenList :=
  (Tokenizer.ofText text ignoreCase).tokenize

theorem ofText_blank {text : List Char} (h : Text.isBlankText text = true) (ignoreCase : Bool) :
    ofText text ignoreCase = ⟨[.endOfInput], none⟩ := by
  have ht : Text.trimLeft text = [] := (Text.trimLeft_eq_nil_iff text).mpr h
  have hnext : (Tokenizer.ofText text ignoreCase).next =
      (some .endOfInput, { (Tokenizer.ofText text ignoreCase).atEnd with finished := true }) := by
    simp [Tokenizer.next, Tokenizer.nextToken, Tokenizer.ofText, Tokenizer.atEnd, ht]
  unfold ofText Tokenizer.tokenize Tokenizer.collect
  rw [Tokenizer.take, hnext]
  cases (Tokenizer.ofText text ignoreCase).rest.length <;>
    simp [Tokenizer.take, Tokenizer.next, Tokenizer.atEnd, Tokenizer.ofText]

end TokenList

end RecordFilter
