import RecordFilter.Settings.Layer
import RecordFilter.Yaml.Document

/-!
# Settings written in YAML

The settings are the entries of a mapping, which is the only document of the text; a text without
documents has no settings. The keys of mappings are scalars with a text: null is no key. Numbers
are written in digits. A mapping that breaks these rules anywhere gives no settings.
-/

namespace RecordFilter.Settings.Yaml

open RecordFilter.Yaml (Node)

/-- The key that a node is, if it is one. -/
def key? : Node → Option String
  | .text s => some s
  | .integer n => some (String.ofList (Numeral.ofInt n.toInt))
  | .bool b => some (if b then "true" else "false")
  | .real spelling => some spelling
  | _ => none

mutual

/-- The value that a node is, with everything in it. -/
def value? : Node → Option RawValue
  | .null => some .null
  | .unknown => some .null
  | .bool b => some (.bool b)
  | .integer n => some (.integer n)
  | .real spelling => (Numeral.decimal? spelling.toList).map .real
  | .text s => some (.text s)
  | .sequence elements => (values? elements).map fun _ => .composite
  | .mapping entries => (entries? entries).map fun _ => .composite

/-- The values that nodes are. -/
def values? : List Node → Option (List RawValue)
  | [] => some []
  | n :: rest =>
    match value? n, values? rest with
    | some v, some vs => some (v :: vs)
    | _, _ => none

/-- The keys and values of a mapping. -/
def entries? : List (Node × Node) → Option (List (String × RawValue))
  | [] => some []
  | (k, n) :: rest =>
    match key? k, value? n, entries? rest with
    | some k, some v, some others => some ((k, v) :: others)
    | _, _, _ => none

end

/-- The settings of a text. -/
def read? (text : List Char) : Option Layer :=
  match (RecordFilter.Yaml.tokens? text).bind RecordFilter.Yaml.documents? with
  | some [] => some []
  | some [.mapping entries] => (entries? entries).map Layer.ofKeys
  | _ => none

end RecordFilter.Settings.Yaml
