import RecordFilter.Settings.Environment
import RecordFilter.Settings.FileForm

/-!
# Settings

A run has three settings: the expression, whether keywords are recognised in any case, and how many
records are evaluated together. Each may come from the command line, from an environment variable,
from a settings file or from its default. The sources are layered name by name, the environment over
the file, before the values are converted, so a value that another one overrides is never looked
at.
-/

namespace RecordFilter

/-- The settings that a file and the environment give. -/
structure Configuration where
  expression : Option String
  ignoreCase : Bool
  batchSize : Option Nat
  deriving DecidableEq

/-- The settings of a run. -/
structure Settings where
  expression : String
  ignoreCase : Bool
  batchSize : Nat
  deriving DecidableEq

namespace Settings

/-- The key of the expression. -/
def expressionKey : String := "expression"

/-- The key of the treatment of case. -/
def ignoreCaseKey : String := "case_insensitive"

/-- The key of the batch size. -/
def batchSizeKey : String := "batch_size"

/-- How many records are evaluated together if nothing else is said. -/
def defaultBatchSize : Nat := 4096

end Settings

namespace Configuration

/-- The configuration that sets nothing. -/
def empty : Configuration := ⟨none, false, none⟩

/-- The value of a name: what the environment gives, else what the file does. -/
def lookup (file environment : Settings.Layer) (name : String) : Option RawValue :=
  (environment.get? name).or (file.get? name)

/-- What a value is converted to, and what stands for a missing one. There is no answer when the
value is of the wrong kind. -/
def converted? {α : Type} (convert? : RawValue → Option α) (missing : α) :
    Option RawValue → Option α
  | none => some missing
  | some v => convert? v

/-- The configuration that a settings file and the environment give together, unless one of the
values is of the wrong kind. -/
def ofLayers? (file environment : Settings.Layer) : Option Configuration :=
  let value := lookup file environment
  match converted? RawValue.toText? none (value Settings.expressionKey),
    converted? RawValue.toFlag? false (value Settings.ignoreCaseKey),
    converted? RawValue.toCount? none (value Settings.batchSizeKey) with
  | some expression, some ignoreCase, some batchSize => some ⟨expression, ignoreCase, batchSize⟩
  | _, _, _ => none

/-- The configuration of a settings file, with the environment variables over it. -/
def load? (form : Settings.FileForm) (content : Text.Bytes) (environment : List (String × String)) :
    Option Configuration :=
  match form.read? content with
  | some file => ofLayers? file (Settings.Environment.settings environment)
  | none => none

end Configuration

namespace Settings

/-- The settings of a run: what the command line gives comes before the configuration. A flag on
the command line can only switch on, and a batch holds at least one record. -/
def resolve (configuration : Option Configuration) (expression : Option String)
    (ignoreCase : Bool) (batchSize : Option Nat) : Settings :=
  let configured := configuration.getD .empty
  { expression := (expression.or configured.expression).getD ""
    ignoreCase := ignoreCase || configured.ignoreCase
    batchSize := max ((batchSize.or configured.batchSize).getD defaultBatchSize) 1 }

end Settings

end RecordFilter
