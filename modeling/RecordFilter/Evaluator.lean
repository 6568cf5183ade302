import RecordFilter.Condition.Parser
import RecordFilter.Condition.Eval

/-!
# Evaluators

An evaluator holds the condition of the expression that was built last and evaluates it on any
number of records. While it holds no condition it accepts every record: before the first build,
after the build of a blank text, and after a build that failed.

* `build_eq`: a build depends on the evaluator through its treatment of case alone.
-/

namespace RecordFilter

/-- A filter that can be built anew. -/
structure Evaluator where
  /-- Keywords are recognised in any case. -/
  ignoreCase : Bool
  /-- The condition that records have to meet; without one all do. -/
  condition : Option Condition
  /-- Why the last build failed, if it did. -/
  lastError : Option ParseError

namespace Evaluator

/-- An evaluator on which nothing has been built. -/
def unbuilt (ignoreCase : Bool) : Evaluator := ⟨ignoreCase, none, none⟩

/-- Builds the expression in place of the last one, and says whether it could be read. -/
def build (e : Evaluator) (text : String) : Bool × Evaluator :=
  match Condition.parse e.ignoreCase text with
  | .ok condition => (true, ⟨e.ignoreCase, condition, none⟩)
  | .error reason => (false, ⟨e.ignoreCase, none, some reason⟩)

/-- The evaluator holds a condition. -/
def isActive (e : Evaluator) : Bool := e.condition.isSome

/-- The record meets the condition, if there is one. -/
def accepts (e : Evaluator) (fields : Fields) : Bool :=
  match e.condition with
  | none => true
  | some c => c.holds fields

/-- An expression that could not be read, and why. -/
structure Rejection where
  expression : String
  reason : ParseError

namespace Rejection

/-- The error that ends a run with the expression. -/
def message (r : Rejection) : String :=
  "Filter: Invalid expression " ++ Text.quoted r.expression ++ ": " ++ r.reason.message

/-- The warning that the expression is not used. -/
def warning (r : Rejection) : String :=
  "Filter: rejected expression " ++ Text.quoted r.expression ++ ": " ++ r.reason.message

end Rejection

/-- An evaluator of the expression, which has to be one that can be read. -/
def compile (ignoreCase : Bool) (expression : String) : Except Rejection Evaluator :=
  match Condition.parse ignoreCase expression with
  | .ok condition => .ok ⟨ignoreCase, condition, none⟩
  | .error reason => .error ⟨expression, reason⟩

theorem build_eq (e : Evaluator) (text : String) :
    e.build text = (unbuilt e.ignoreCase).build text := rfl

end Evaluator

end RecordFilter
