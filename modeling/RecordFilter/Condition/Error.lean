import RecordFilter.Tokenizer
import RecordFilter.Text.Quoted

/-!
# What can be wrong with an expression

The causes for which an expression has no condition, and their messages. Two of them are limits:
`maxNesting` parentheses may be open at once, and `maxRelations` relations may stand in one
expression.
-/

namespace RecordFilter

/-- The most parentheses that may be open at once. -/
def maxNesting : Nat := 256

/-- The most relations in one expression. -/
def maxRelations : Nat := 1024

/-- Why an expression has no condition. -/
inductive ParseError where
  /-- A relation or a group has to begin here, and the token begins neither. -/
  | unexpectedToken (found : Token)
  /-- The field is not followed by a literal. -/
  | missingValue (field : String) (found : Token)
  /-- A group is not closed after its expression. -/
  | unclosedGroup (found : Token)
  /-- The expression is complete, and this token follows it. -/
  | trailingInput (found : Token)
  /-- A character begins no lexeme. -/
  | unexpectedCharacter (stray : StrayChar)
  /-- One more parenthesis than may be open at once. -/
  | nestingTooDeep
  /-- One more relation than an expression may hold. -/
  | tooManyRelations
  deriving DecidableEq

namespace ParseError

/-- The decimal digits of a count. -/
def count (n : Nat) : String := String.ofList (Nat.toDigits 10 n)

/-- The sentence that reports the error. -/
def message : ParseError → String
  | .unexpectedToken found => "unexpected " ++ found.text ++ ", expected field name or '('"
  | .missingValue field found =>
    "field `" ++ field ++ "` has no value to compare against, found " ++ found.text
  | .unclosedGroup found => "expected ')' to close group, found " ++ found.text
  | .trailingInput found => "unexpected " ++ found.text ++ " after complete expression"
  | .unexpectedCharacter stray =>
    "unexpected character " ++ Text.quotedChar stray.char ++ " at offset " ++ count stray.offset
  | .nestingTooDeep => "parentheses nested deeper than " ++ count maxNesting ++ " levels"
  | .tooManyRelations => "expression has more than " ++ count maxRelations ++ " relations"

end ParseError

end RecordFilter
