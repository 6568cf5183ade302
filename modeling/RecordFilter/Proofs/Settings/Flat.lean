import RecordFilter.Proofs.Decimal.ReadBack
import RecordFilter.Proofs.Settings.Layers
import RecordFilter.Proofs.Yaml.Nodes
import RecordFilter.Settings.Basic
import RecordFilter.Text.Lines

/-!
# Settings from a flat file

A flat file is a YAML text with one mapping, from scalars to scalars, or with nothing at all. The
settings of a run are made of such a file, the variables and the command line name by name: what
counts is the value that the variables give a setting, else the one of the file, and only this value
has to be of the right kind.

Two things go beyond the three settings. An entry that cannot be read makes the whole file
unreadable, under whatever key it stands and whatever overrides it: null is no key, and a number is
not named without digits. And a key that is written as a path into a setting is not an unknown key;
it gives the setting a value with parts, which is of the wrong kind for all three.

* `FlatFile`: a flat file with its entries;
* `effective`: the value of a setting that counts;
* `FlatFile.read?_cases`: when the file is read, and which values it then gives with the variables;
* `layered_settings`: the settings of a run, setting by setting.
-/

namespace RecordFilter

namespace Yaml.Node

/-- The node has no parts. -/
def isScalar : Node → Bool
  | .sequence _ => false
  | .mapping _ => false
  | _ => true

end Yaml.Node

/-! ## Configurations -/

namespace Configuration

variable {file environment : Settings.Layer} {configuration : Configuration}

section Converted
variable {α : Type} {convert? : RawValue → Option α} {missing a : α} {value : Option RawValue}

end Converted

theorem converted_of_ofLayers? (h : ofLayers? file environment = some configuration) :
    converted? RawValue.toText? none (lookup file environment Settings.expressionKey) =
        some configuration.expression ∧
      converted? RawValue.toFlag? false (lookup file environment Settings.ignoreCaseKey) =
        some configuration.ignoreCase ∧
      converted? RawValue.toCount? none (lookup file environment Settings.batchSizeKey) =
        some configuration.batchSize := by
  unfold ofLayers? at h
  dsimp only at h
  split at h
  · next hexpression hignoreCase hbatchSize =>
    cases h
    exact ⟨hexpression, hignoreCase, hbatchSize⟩
  · cases h

end Configuration

namespace Settings

open RecordFilter.Yaml (Node tokens? documents? documents?_proper)

/-- The names of the settings. -/
def names : List String := [expressionKey, ignoreCaseKey, batchSizeKey]

/-! ## Flat files -/

/-- **A flat file** with its entries. -/
structure FlatFile (content : Text.Bytes) (entries : List (Node × Node)) : Prop where
  /-- The text has no document, or one with the entries. -/
  read : ∃ tokens, tokens? (Text.decodeLossy (Text.dropOrderMark content)) = some tokens ∧
    (documents? tokens = some [.mapping entries] ∨ documents? tokens = some [] ∧ entries = [])
  keys : ∀ e ∈ entries, e.1.isScalar = true
  values : ∀ e ∈ entries, e.2.isScalar = true

/-- The entry makes a file unreadable: its key is null, or its value is a number that is named
without digits. -/
def Unreadable (e : Node × Node) : Prop :=
  e.1 = .null ∨ ∃ spelling : String, spelling.toList ∈ Node.numberNames ∧ e.2 = .real spelling

namespace Yaml

/-- What the entries of a mapping give under their keys. -/
def given (entries : List (Node × Node)) : List (String × RawValue) :=
  entries.filterMap fun e => (key? e.1).bind fun key => (value? e.2).map fun v => (key, v)

/-- The entry has a key and a value. -/
def Readable (e : Node × Node) : Prop := (key? e.1).isSome = true ∧ (value? e.2).isSome = true

theorem entries?_of_readable {entries : List (Node × Node)} (h : ∀ e ∈ entries, Readable e) :
    entries? entries = some (given entries) := by
  induction entries with
  | nil => rfl
  | cons e rest ih =>
    obtain ⟨he, hrest⟩ := List.forall_mem_cons.mp h
    obtain ⟨key, hkey⟩ := Option.isSome_iff_exists.mp he.1
    obtain ⟨v, hv⟩ := Option.isSome_iff_exists.mp he.2
    have hg : given (e :: rest) = (key, v) :: given rest := by simp [given, hkey, hv]
    simp only [entries?, hkey, hv, ih hrest, hg]

theorem entries?_of_not_readable {entries : List (Node × Node)} {e : Node × Node}
    (he : e ∈ entries) (h : ¬ Readable e) : entries? entries = none := by
  induction entries with
  | nil => cases he
  | cons d rest ih =>
    simp only [entries?]
    split
    · rename_i key v others hkey hv hothers
      rcases List.mem_cons.mp he with rfl | he
      · exact absurd ⟨by simp [hkey], by simp [hv]⟩ h
      · rw [ih he] at hothers
        cases hothers
    · rfl

theorem not_decimal_of_named {spelling : List Char} (h : spelling ∈ Node.numberNames) :
    Numeral.decimal? spelling = none := by
  have hall : ∀ s ∈ Node.numberNames, Numeral.decimal? s = none := by decide
  exact hall spelling h

theorem key?_isSome_iff {k : Node} (hs : k.isScalar = true) (hk : k ≠ .unknown) :
    (key? k).isSome = true ↔ k ≠ .null := by
  cases k <;> simp_all [key?, Node.isScalar]

theorem value?_isSome_iff {n : Node} (hs : n.isScalar = true) (hn : n.Proper) :
    (value? n).isSome = true ↔
      ¬ ∃ spelling : String, spelling.toList ∈ Node.numberNames ∧ n = .real spelling := by
  cases n with
  | real spelling =>
    cases hn with
    | real hreal =>
      have hmem : (value? (.real spelling)).isSome = (Numeral.decimal? spelling.toList).isSome := by
        simp [value?]
      rw [hmem]
      constructor
      · rintro h ⟨s, hs, he⟩
        obtain rfl := Node.real.inj he
        simp [not_decimal_of_named hs] at h
      · intro h
        by_contra hd
        refine h ⟨spelling, ?_, rfl⟩
        simpa [Node.isReal, hd] using hreal
  | sequence _ => simp [Node.isScalar] at hs
  | mapping _ => simp [Node.isScalar] at hs
  | _ => simp [value?]

theorem readable_iff {entries : List (Node × Node)} (hm : (Node.mapping entries).Proper)
    (hkeys : ∀ e ∈ entries, e.1.isScalar = true) (hvalues : ∀ e ∈ entries, e.2.isScalar = true)
    {e : Node × Node} (he : e ∈ entries) : Readable e ↔ ¬ Unreadable e := by
  cases hm with
  | mapping _ known _ values =>
    rw [Readable, key?_isSome_iff (hkeys e he) (known e he),
      value?_isSome_iff (hvalues e he) (values e he), Unreadable, not_or]

/-! ## The entry of a setting -/

theorem eq_text_of_key? {name : String} (hname : name ∈ names) {k : Node} (hk : k.Proper)
    (h : key? k = some name) : k = .text name := by
  have hletter : ∀ name ∈ names, 'e' ∈ name.toList := by decide
  have hreal : ∀ name ∈ names, Node.isReal name.toList = false := by decide
  have hother : "true" ∉ names ∧ "false" ∉ names := by decide
  cases hk with
  | text s => rw [Option.some.inj h]
  | integer n =>
    obtain rfl := Option.some.inj h
    have hc := hletter _ hname
    rw [String.toList_ofList] at hc
    rcases Numeral.ofInt_chars _ _ hc with he | he
    · exact absurd he (by decide)
    · exact absurd he (by decide)
  | bool b =>
    obtain rfl := Option.some.inj h
    cases b
    · exact absurd hname hother.2
    · exact absurd hname hother.1
  | real hr =>
    obtain rfl := Option.some.inj h
    rw [hreal _ hname] at hr
    cases hr
  | _ => cases h

/-- A file gives a setting one value at most under its name. -/
theorem single {entries : List (Node × Node)} (hm : (Node.mapping entries).Proper) {name : String}
    (hname : name ∈ names) : Layer.Single (given entries) name := by
  intro v w hv hw
  cases hm with
  | mapping distinct _ keys _ =>
    have hentry {v : RawValue} (h : (name, v) ∈ given entries) :
        ∃ e ∈ entries, e.1 = .text name ∧ value? e.2 = some v := by
      obtain ⟨e, he, hg⟩ := List.mem_filterMap.mp h
      obtain ⟨key, hkey, hg⟩ := Option.bind_eq_some_iff.mp hg
      obtain ⟨u, hu, hg⟩ := Option.map_eq_some_iff.mp hg
      obtain ⟨rfl, rfl⟩ := Prod.mk.inj hg
      exact ⟨e, he, eq_text_of_key? hname (keys e he) hkey, hu⟩
    obtain ⟨e, he, hek, hev⟩ := hentry hv
    obtain ⟨e', he', hek', hev'⟩ := hentry hw
    have hsame : e = e' := by
      by_contra hne
      have hsymm : Std.Symm fun a b : Node × Node => a.1.sameScalar b.1 = false :=
        ⟨fun a b (h : a.1.sameScalar b.1 = false) => (Node.sameScalar_comm _ _).trans h⟩
      have := List.Pairwise.forall distinct he he' hne
      simp [hek, hek', Node.sameScalar] at this
    rw [hsame, hev'] at hev
    exact (Option.some.inj hev).symm

end Yaml

/-! ## Layering -/

/-- **The value of a setting that counts**: the one that the variables give it, else the one of the
file. -/
def effective (entries : List (Node × Node)) (environment : List (String × String))
    (name : String) : Option RawValue :=
  (Layer.given? (Environment.given environment) name).or
    (Layer.given? (Yaml.given entries) name)

/-- Neither source gives a setting a value both under its name and under a path into it. -/
def OneWay (entries : List (Node × Node)) (environment : List (String × String)) : Prop :=
  ∀ name ∈ names, Layer.OneWay (Yaml.given entries) name ∧
    Layer.OneWay (Environment.given environment) name

instance (entries : List (Node × Node)) (environment : List (String × String)) :
    Decidable (OneWay entries environment) :=
  inferInstanceAs (Decidable (∀ name ∈ names, Layer.OneWay (Yaml.given entries) name ∧
    Layer.OneWay (Environment.given environment) name))

theorem isPlain_of_mem_names {name : String} (hname : name ∈ names) : KeyPath.IsPlain name := by
  have hall : ∀ name ∈ names, KeyPath.root? name.toList = some name.toList := by decide
  exact hall name hname

section Flat

variable {content : Text.Bytes} {entries : List (Node × Node)}
  {environment : List (String × String)}

theorem FlatFile.proper (h : FlatFile content entries) : (Node.mapping entries).Proper := by
  obtain ⟨tokens, -, hd | ⟨-, rfl⟩⟩ := h.read
  · exact documents?_proper hd _ (List.mem_singleton_self _)
  · exact .mapping List.Pairwise.nil (by simp) (by simp) (by simp)

theorem FlatFile.read?_eq (h : FlatFile content entries) :
    FileForm.read? .yaml content = (Yaml.entries? entries).map Layer.ofKeys := by
  obtain ⟨tokens, ht, hd | ⟨hd, rfl⟩⟩ := h.read
  · simp [FileForm.read?, FileForm.readText?, Yaml.read?, ht, hd]
  · simp [FileForm.read?, FileForm.readText?, Yaml.read?, ht, hd, Yaml.entries?, Layer.ofKeys]

/-- The value of a setting in the two layers is the one that counts. -/
theorem lookup_eq_effective (hm : (Node.mapping entries).Proper)
    (hkeys : (environment.filterMap fun v => Environment.key? v.1).Nodup)
    (hways : OneWay entries environment) {name : String} (hname : name ∈ names) :
    Configuration.lookup (.ofKeys (Yaml.given entries)) (Environment.settings environment) name =
      effective entries environment name := by
  have hplain := isPlain_of_mem_names hname
  obtain ⟨hfile, henvironment⟩ := hways name hname
  have hsettings : Environment.settings environment = .ofKeys (Environment.given environment) := rfl
  rw [Configuration.lookup, effective, hsettings,
    Layer.get?_ofKeys hplain (.ofKeys hplain (Environment.single hkeys name) henvironment),
    Layer.get?_ofKeys hplain (.ofKeys hplain (Yaml.single hm hname) hfile)]

/-- A flat file is read unless one of its entries cannot be, and then the settings have the values
that count. -/
theorem FlatFile.read?_cases (hf : FlatFile content entries)
    (hkeys : (environment.filterMap fun v => Environment.key? v.1).Nodup)
    (hways : OneWay entries environment) :
    ((∃ e ∈ entries, Unreadable e) ∧ FileForm.read? .yaml content = none) ∨
      (¬ ∃ e ∈ entries, Unreadable e) ∧ ∃ file, FileForm.read? .yaml content = some file ∧
        ∀ name ∈ names, Configuration.lookup file (Environment.settings environment) name =
          effective entries environment name := by
  have hm := hf.proper
  have hread {e : Node × Node} (he : e ∈ entries) := Yaml.readable_iff hm hf.keys hf.values he
  by_cases hu : ∃ e ∈ entries, Unreadable e
  · obtain ⟨e, he, hue⟩ := hu
    have hnone := Yaml.entries?_of_not_readable he fun hr => (hread he).mp hr hue
    exact .inl ⟨⟨e, he, hue⟩, by simp [hf.read?_eq, hnone]⟩
  · have hsome := Yaml.entries?_of_readable fun e he => (hread he).mpr fun hue => hu ⟨e, he, hue⟩
    exact .inr ⟨hu, _, by rw [hf.read?_eq, hsome]; rfl,
      fun name hname => lookup_eq_effective hm hkeys hways hname⟩

end Flat

end Settings

end RecordFilter
