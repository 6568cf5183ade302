import RecordFilter.Text.Quoted

/-!
# The log

A run logs what it does as lines with an importance and the part of the program that they come from.
Characters that would control the terminal are written as their code points.
-/

namespace RecordFilter

/-- The importance of a message. -/
inductive Level where
  | error
  | warn
  | info
  | debug
  | trace
  deriving DecidableEq

namespace Level

/-- How much has to be logged for the message to be among it; nothing at all is zero. -/
def rank : Level → Nat
  | .error => 1
  | .warn => 2
  | .info => 3
  | .debug => 4
  | .trace => 5

/-- The name that the log shows. -/
def name : Level → String
  | .error => "ERROR"
  | .warn => "WARN"
  | .info => "INFO"
  | .debug => "DEBUG"
  | .trace => "TRACE"

end Level

/-- The part of the program that a message comes from. -/
inductive Origin where
  | program
  | application
  | evaluator
  | lexer
  deriving DecidableEq

/-- The name of the part, by which messages can be chosen. -/
def Origin.name : Origin → String
  | .program => "booleval"
  | .application => "booleval::app"
  | .evaluator => "booleval::evaluator"
  | .lexer => "booleval::dsl::lexer"

/-- A line of the log. -/
structure LogLine where
  level : Level
  origin : Origin
  message : String
  deriving DecidableEq

namespace LogLine

/-- How a character of a message is logged. -/
def escapeControl (c : Char) : List Char :=
  match c with
  | '\x1b' => "\\x1b".toList
  | '\x07' => "\\x07".toList
  | '\x08' => "\\x08".toList
  | '\x0c' => "\\x0c".toList
  | '\x7f' => "\\x7f".toList
  | c => if 0x80 ≤ c.toNat ∧ c.toNat ≤ 0x9F then Text.codePointEscape c else [c]

/-- The line as it is logged, without the time and the origin. -/
def text (l : LogLine) : String :=
  l.level.name ++ " " ++ String.ofList (l.message.toList.flatMap escapeControl)

end LogLine

end RecordFilter
