import RecordFilter.Value

/-!
# Tokens

The units that an expression is made of once its layout is gone. A connective and a comparison
each have a word and one or two symbols; parentheses have one spelling. All other words are fields
or literals.
-/

namespace RecordFilter

/-- A unit of an expression. -/
inductive Token where
  | connective (c : Connective)
  | comparison (c : Comparison)
  | openGroup
  | closeGroup
  /-- The name of a field, looked up in the record. -/
  | field (name : String)
  /-- A value written in the expression. -/
  | literal (v : Value)
  /-- What follows the last unit. -/
  | endOfInput
  deriving DecidableEq

namespace Token

/-- The token is a comparison. -/
def isComparison : Token → Bool
  | .comparison _ => true
  | _ => false

/-- After this token a plain word is a literal: the token is a field or a comparison. -/
def awaitsLiteral : Token → Bool
  | .field _ => true
  | .comparison _ => true
  | _ => false

/-- The token as messages name it. -/
def text : Token → String
  | .connective c => c.name
  | .comparison c => c.name
  | .openGroup => "("
  | .closeGroup => ")"
  | .field name => "field `" ++ name ++ "`"
  | .literal v => v.kind ++ " literal " ++ v.text
  | .endOfInput => "end of input"

/-! ## Spellings -/

/-- The words for connectives and comparisons. -/
def keywords : List (List Char × Token) :=
  [("and".toList, .connective .and), ("or".toList, .connective .or),
    ("eq".toList, .comparison .eq), ("neq".toList, .comparison .neq),
    ("gt".toList, .comparison .gt), ("lt".toList, .comparison .lt),
    ("geq".toList, .comparison .geq), ("leq".toList, .comparison .leq)]

/-- The symbols, the longer ones before those that they begin with. -/
def symbols : List (List Char × Token) :=
  [("&&".toList, .connective .and), ("||".toList, .connective .or),
    ("==".toList, .comparison .eq), ("!=".toList, .comparison .neq),
    (">=".toList, .comparison .geq), ("<=".toList, .comparison .leq),
    ("=".toList, .comparison .eq), (">".toList, .comparison .gt),
    ("<".toList, .comparison .lt), ("(".toList, .openGroup), (")".toList, .closeGroup)]

/-- The token that the word is a keyword for. With `ignoreCase` the ASCII letters of the word may
be in either case. -/
def keyword? (ignoreCase : Bool) (word : List Char) : Option Token :=
  keywords.lookup (if ignoreCase then word.map Char.toLower else word)

end Token

end RecordFilter
