import RecordFilter.Proofs.Settings.Flat
import RecordFilter.Proofs.Text.Undamaged
import RecordFilter.Proofs.Yaml.FlatDocument

/-!
# Settings files that are written line by line

The plainest way to write a settings file is one entry on each line: a name, a colon and a value,
with or without quotes, and comments and blank lines where one likes. Such a file is flat, with just
the entries that it shows, as long as it names nothing twice; if it does, it cannot be read.

* `FlatText`: lines that make the text of a file;
* `flatFile_iff_distinct`: the file is flat if its keys differ;
* `load?_of_repeated`: nothing is loaded if a key comes twice.
-/

namespace RecordFilter.Settings

open RecordFilter.Yaml (Line Node Written documents?_text tokens?_text)

/-- **Lines that make the text of a file.** -/
structure FlatText (lines : List Line) : Prop where
  valid : ∀ x ∈ lines, x.isValid = true
  /-- A null character would end the text. -/
  unended : '\x00' ∉ Line.text lines
  /-- Lines end with a line feed alone. -/
  lineFeeds : '\r' ∉ Line.text lines
  /-- A mark before the text is no part of it. -/
  unmarked : (Line.text lines).head? ≠ some '\ufeff'

/-- The content of the file. -/
def fileOf (lines : List Line) : Text.Bytes := Text.encode (String.ofList (Line.text lines))

variable {lines : List Line}

theorem FlatText.decode (h : FlatText lines) :
    Text.decodeLossy (Text.dropOrderMark (fileOf lines)) = Line.text lines := by
  rw [fileOf, Text.dropOrderMark_encode (by simpa using h.unmarked), Text.decodeLossy_encode,
    String.toList_ofList]

theorem FlatText.tokens? (h : FlatText lines) :
    RecordFilter.Yaml.tokens? (Text.decodeLossy (Text.dropOrderMark (fileOf lines))) =
      some (RecordFilter.Yaml.Layout.closing (Line.after [] lines)) := by
  rw [h.decode, tokens?_text h.valid h.unended h.lineFeeds]

theorem isScalar_node (w : Written) : w.node.isScalar = true := by
  rcases w.node_cases with h | ⟨b, h⟩ | ⟨n, h⟩ | ⟨s, h⟩ | ⟨s, h⟩ <;> simp [h, Node.isScalar]

theorem isScalar_entries (lines : List Line) :
    ∀ e ∈ Line.entries lines, e.1.isScalar = true ∧ e.2.isScalar = true := by
  intro e he
  obtain ⟨x, -, hx⟩ := List.mem_filterMap.mp he
  cases x with
  | blank trailer => cases hx
  | entry key value trailer =>
    obtain rfl := Option.some.inj hx
    refine ⟨isScalar_node key, ?_⟩
    cases value with
    | none => rfl
    | some v => exact isScalar_node v.2

/-- **The file is flat, with the entries of its lines, if its keys differ.** -/
theorem flatFile_iff_distinct (h : FlatText lines) :
    FlatFile (fileOf lines) (Line.entries lines) ↔ Node.Distinct (Line.entries lines) := by
  constructor
  · intro hflat
    cases hflat.proper with
    | mapping distinct _ _ _ => exact distinct
  · intro hdistinct
    refine ⟨⟨_, h.tokens?, ?_⟩, fun e he => (isScalar_entries lines e he).1,
      fun e he => (isScalar_entries lines e he).2⟩
    rw [documents?_text, if_pos hdistinct]
    split
    · exact .inr ⟨rfl, ‹_›⟩
    · exact .inl rfl

/-- **Nothing is loaded** from a file with a key twice, whatever the variables give. -/
theorem load?_of_repeated (h : FlatText lines) (hrepeated : ¬ Node.Distinct (Line.entries lines))
    (environment : List (String × String)) :
    Configuration.load? .yaml (fileOf lines) environment = none := by
  have hne : Line.entries lines ≠ [] := fun hnil => hrepeated (hnil ▸ List.Pairwise.nil)
  have hread : FileForm.read? .yaml (fileOf lines) = none := by
    simp [FileForm.read?, FileForm.readText?, Yaml.read?, h.tokens?, documents?_text, hne,
      hrepeated]
  simp [Configuration.load?, hread]

end RecordFilter.Settings
