import RecordFilter.Settings.KeyPath

/-!
# Layers of settings

A source of settings gives values under keys. What it gives is a layer, in which the value of a
name is the last one given.
-/

namespace RecordFilter.Settings

/-- Names and the values given for them, in order. -/
abbrev Layer := List (String × RawValue)

namespace Layer

/-- The layer of values that are given under keys. -/
def ofKeys (given : List (String × RawValue)) : Layer :=
  given.map fun entry => KeyPath.place entry.1 entry.2

/-- The value of a name, if there is one. -/
def get? (layer : Layer) (name : String) : Option RawValue := layer.reverse.lookup name

end Layer

end RecordFilter.Settings
