import RecordFilter.Text.Blank

/-!
# Lines of bytes

A file is a list of bytes. Its lines end with a line feed, and a carriage return right before the
line feed belongs to the end of the line too; what follows the last line feed is a line of its own
unless it is empty. A line is text when its bytes are valid UTF-8.
-/

namespace RecordFilter.Text

/-- The content of a file. -/
abbrev Bytes := List UInt8

/-- The byte that ends a line. -/
def lineFeed : UInt8 := 10

/-- The byte that is dropped before a line feed. -/
def carriageReturn : UInt8 := 13

/-- A line whose bytes are given last one first, up to the line feed that has ended it. -/
def endedLine : Bytes → Bytes
  | [] => []
  | b :: before => if b = carriageReturn then before.reverse else (b :: before).reverse

/-- The lines of the bytes that follow, behind the lines `done` and the bytes `current` of a line
that has not ended (the last one first in both). -/
def linesAfter (done : List Bytes) (current : Bytes) : Bytes → List Bytes
  | [] => (if current.isEmpty then done else current.reverse :: done).reverse
  | b :: rest =>
    if b = lineFeed then linesAfter (endedLine current :: done) [] rest
    else linesAfter done (b :: current) rest

/-- The lines of a file, without the bytes that end them. -/
def lines (bytes : Bytes) : List Bytes := linesAfter [] [] bytes

/-- The text that the bytes are in UTF-8, if they are valid. -/
def decode? (bytes : Bytes) : Option String := String.fromUTF8? ⟨bytes.toArray⟩

/-- The text in UTF-8. -/
def encode (text : String) : Bytes := text.toUTF8.data.toList

/-- A line of text with its line feed. -/
def encodeLine (line : String) : Bytes := encode line ++ [lineFeed]

end RecordFilter.Text
