import RecordFilter.Settings.Ini
import RecordFilter.Settings.Json5
import RecordFilter.Settings.Ron
import RecordFilter.Settings.Toml.Document
import RecordFilter.Settings.Yaml
import RecordFilter.Text.Lossy

/-!
# Forms of settings files

A settings file is written in one of six forms, which the ending of its name tells. In each form the
file gives names and values, and a file that is not well-formed gives none. A mark of the byte order
before the text is left out.
-/

namespace RecordFilter.Settings

/-- How a settings file is written. -/
inductive FileForm where
  | toml
  | json
  | yaml
  | ini
  | ron
  | json5
  deriving DecidableEq

namespace FileForm

/-- The forms in the order in which they are tried. -/
def all : List FileForm := [.toml, .json, .yaml, .ini, .ron, .json5]

/-- The endings of the names of files, without their point. -/
def endings : FileForm → List String
  | .toml => ["toml"]
  | .json => ["json"]
  | .yaml => ["yaml", "yml"]
  | .ini => ["ini"]
  | .ron => ["ron"]
  | .json5 => ["json5"]

/-- The form that an ending tells. -/
def ofEnding? (ending : String) : Option FileForm :=
  all.find? fun form => form.endings.contains ending

/-- The value that a JSON document is. -/
def rawOfJson : Json → RawValue
  | .null => .null
  | .bool b => .bool b
  | .number (.integer n) => .integer n
  | .number (.natural n) => .natural n
  | .number (.real x) => .real x
  | .string s => .text s
  | .array _ => .composite
  | .object _ => .composite

/-- The settings that a JSON text gives. -/
def readJson? (text : List Char) : Option Layer :=
  match Json.parse? text with
  | some (.object members) => some (.ofKeys (members.map fun (name, v) => (name, rawOfJson v)))
  | _ => none

/-- The settings that a text of the form gives. -/
def readText? : FileForm → List Char → Option Layer
  | .toml => Toml.read?
  | .json => readJson?
  | .yaml => Yaml.read?
  | .ini => Ini.read?
  | .ron => Ron.read?
  | .json5 => Json5.read?

/-- The settings that a file of the form gives. -/
def read? (form : FileForm) (content : Text.Bytes) : Option Layer :=
  form.readText? (Text.decodeLossy (Text.dropOrderMark content))

end FileForm

end RecordFilter.Settings
