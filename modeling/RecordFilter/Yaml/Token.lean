/-!
# Tokens of YAML

What a YAML text is made of once its layout is read: scalars and what may stand before them, and
the beginnings, ends and separators of collections. Block collections have no marks of their own in
the text; their tokens come from the indentation.
-/

namespace RecordFilter.Yaml

/-- A unit of a YAML text. -/
inductive Token where
  /-- A scalar; a plain one may stand for something else than its text. -/
  | scalar (plain : Bool) (text : String)
  /-- Names the node that follows. -/
  | anchor (name : String)
  /-- Stands for the node of that name. -/
  | reference (name : String)
  /-- Says what kind of node follows. -/
  | tag (handle kind : String)
  | blockSequence
  | blockMapping
  /-- A block collection ends. -/
  | blockEnd
  /-- An element of a block sequence follows. -/
  | blockEntry
  | key
  | value
  | flowSequence
  | flowSequenceEnd
  | flowMapping
  | flowMappingEnd
  /-- Separates the parts of a flow collection. -/
  | flowEntry
  | documentStart
  | documentEnd
  /-- Says which version of the language follows. -/
  | version
  /-- Says what the handle of a tag stands for. -/
  | tagHandle (handle meaning : String)
  deriving DecidableEq

end RecordFilter.Yaml
