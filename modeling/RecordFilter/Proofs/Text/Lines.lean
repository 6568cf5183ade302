import Mathlib
import RecordFilter.Text.Lines

/-!
# The lines of a file, by splitting

The line feeds of a file cut it into parts. Each part but the last is a line, less the carriage
return that it may end with; the last part is a line as it stands, unless nothing is in it.

* `lines_eq_splitLines`: reading a file byte by byte gives these lines;
* `decode?_encode`: a text is read back from its bytes;
* `decode?_eq_none`: bytes that are those of no text are not read;
* `encode_of_decode`: what is read has these bytes.
-/

namespace RecordFilter.Text

/-- The bytes without the carriage return that they may end with. -/
def dropReturn (part : Bytes) : Bytes :=
  if part.getLast? = some carriageReturn then part.dropLast else part

/-- The lines that the parts between line feeds are. -/
def linesOfParts : List Bytes → List Bytes
  | [] => []
  | [last] => if last = [] then [] else [last]
  | part :: next :: more => dropReturn part :: linesOfParts (next :: more)

/-- The lines of a file, by splitting it at its line feeds. -/
def splitLines (input : Bytes) : List Bytes := linesOfParts (input.splitOn lineFeed)

theorem linesOfParts_cons (part : Bytes) {parts : List Bytes} (h : parts ≠ []) :
    linesOfParts (part :: parts) = dropReturn part :: linesOfParts parts := by
  obtain ⟨next, more, rfl⟩ := List.exists_cons_of_ne_nil h
  rfl

theorem endedLine_eq (current : Bytes) : endedLine current = dropReturn current.reverse := by
  cases current with
  | nil => rfl
  | cons b before => simp [endedLine, dropReturn]

/-- What is read from a place in a line on: the part of the line before it comes first. -/
theorem linesAfter_eq (done : List Bytes) (current rest : Bytes) :
    linesAfter done current rest =
      done.reverse ++
        linesOfParts ((rest.splitOn lineFeed).modifyHead (current.reverse ++ ·)) := by
  induction rest generalizing done current with
  | nil => by_cases h : current = [] <;> simp [linesAfter, linesOfParts, h]
  | cons b rest ih =>
    have hparts : rest.splitOn lineFeed ≠ [] := List.splitOn_ne_nil _ _
    obtain ⟨part, parts, hsplit⟩ := List.exists_cons_of_ne_nil hparts
    rw [List.splitOn] at hsplit
    rw [linesAfter, List.splitOn, List.splitOnP_cons_eq_if_modifyHead]
    by_cases hb : b = lineFeed
    · rw [if_pos hb, if_pos (by simpa using hb), ih, List.modifyHead_cons, List.append_nil,
        linesOfParts_cons _ (by simp [hsplit]), List.splitOn, hsplit, endedLine_eq]
      simp
    · rw [if_neg hb, if_neg (by simpa using hb), ih, List.splitOn, hsplit]
      simp

/-- **The lines of a file** are the parts between its line feeds. -/
theorem lines_eq_splitLines (input : Bytes) : lines input = splitLines input := by
  obtain ⟨part, parts, hsplit⟩ := List.exists_cons_of_ne_nil (List.splitOn_ne_nil lineFeed input)
  rw [lines, linesAfter_eq, splitLines, hsplit]
  rfl

theorem decode?_encode (text : String) : decode? (encode text) = some text := by
  rw [decode?, encode, Array.toArray_toList]
  exact dif_pos text.isValidUTF8

theorem decode?_eq_none {bytes : Bytes} (h : ∀ text, encode text ≠ bytes) :
    decode? bytes = none := by
  rw [decode?, String.fromUTF8?]
  exact dif_neg fun hvalid => h (String.fromUTF8 ⟨bytes.toArray⟩ hvalid) rfl

theorem encode_of_decode {bytes : Bytes} {text : String} (h : decode? bytes = some text) :
    encode text = bytes := by
  by_cases hbytes : ∃ t, encode t = bytes
  · obtain ⟨t, rfl⟩ := hbytes
    rw [Option.some.inj ((decode?_encode t).symm.trans h)]
  · rw [decode?_eq_none fun t ht => hbytes ⟨t, ht⟩] at h
    cases h

end RecordFilter.Text
