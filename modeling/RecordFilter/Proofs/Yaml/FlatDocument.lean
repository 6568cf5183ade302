import RecordFilter.Proofs.Yaml.FlatTokens
import RecordFilter.Proofs.Yaml.Nodes

/-!
# The document of a flat text

The tokens of a flat text make one mapping, of the scalars that its entries write down. An entry
without a value has null for one, and a text without entries is no document. No mapping has a
scalar twice among its keys, so neither has a flat text that is read.

* `Line.entries`: the entries of the lines;
* `Node.ofParts?_parts`: the mapping of entries, if their keys differ;
* `documents?_text`: the documents of a flat text.
-/

namespace RecordFilter.Yaml

namespace Line

/-- The entry of a line, if it has one. -/
def entry? : Line → Option (Node × Node)
  | .blank _ => none
  | .entry key value _ => some (key.node, (value.map fun v => v.2.node).getD .null)

/-- **The entries of the lines.** -/
def entries (lines : List Line) : List (Node × Node) := lines.filterMap entry?

theorem entries_cons_blank (trailer : Trailer) (rest : List Line) :
    entries (.blank trailer :: rest) = entries rest := rfl

theorem entries_cons_entry (key : Written) (value : Option (Nat × Written)) (trailer : Trailer)
    (rest : List Line) :
    entries (.entry key value trailer :: rest) =
      (key.node, (value.map fun v => v.2.node).getD .null) :: entries rest := rfl

/-- The tokens of a line. -/
def tokens : Line → List Token
  | .blank _ => []
  | .entry key value _ => entryTokens key value

theorem after_eq_append {taken : List Token} (h : taken ≠ []) (lines : List Line) :
    after taken lines = taken ++ lines.flatMap tokens := by
  induction lines generalizing taken with
  | nil => simp [after]
  | cons x rest ih =>
    cases x with
    | blank trailer => simpa [after, tokens] using ih h
    | entry key value trailer =>
      have hopen : Layout.opening taken = taken := by simp [Layout.opening, h]
      rw [after, ih (Layout.opening_append_ne_nil _ _), hopen, List.flatMap_cons,
        List.append_assoc, tokens]

/-- The tokens of the lines are those of a mapping, unless there are no entries. -/
theorem closing_after (lines : List Line) :
    Layout.closing (after [] lines) =
      if entries lines = [] then []
      else .blockMapping :: (lines.flatMap tokens ++ [.blockEnd]) := by
  induction lines with
  | nil => rfl
  | cons x rest ih =>
    cases x with
    | blank trailer => exact ih
    | entry key value trailer =>
      rw [after, after_eq_append (Layout.opening_append_ne_nil _ _), entries_cons_entry]
      simp [Layout.closing, Layout.opening, tokens]

theorem length_entries_le (lines : List Line) :
    (entries lines).length ≤ (lines.flatMap tokens).length := by
  induction lines with
  | nil => exact Nat.le_refl _
  | cons x rest ih =>
    cases x with
    | blank trailer => simpa [entries_cons_blank, tokens] using ih
    | entry key value trailer =>
      simp only [entries_cons_entry, List.flatMap_cons, tokens, entryTokens, List.length_cons,
        List.length_append]
      omega

end Line

/-! ## Mappings -/

namespace Node

/-- The keys and values of entries in turn. -/
def parts (entries : List (Node × Node)) : List Node := entries.flatMap fun e => [e.1, e.2]

theorem Pending.add?_key {k : Node} (hk : k ≠ .unknown) (entries : List (Node × Node)) :
    Pending.add? ⟨entries, none⟩ k = some ⟨entries, some k⟩ := by
  unfold Pending.add?
  split <;> simp_all

theorem Pending.add?_value (k v : Node) {entries : List (Node × Node)}
    (h : ∀ e ∈ entries, e.1.sameScalar k = false) :
    Pending.add? ⟨entries, some k⟩ v = some ⟨(k, v) :: entries, none⟩ := by
  have hany : entries.any (fun e => e.1.sameScalar k) = false := by simpa using h
  simp [Pending.add?, hany]

theorem Pending.add?_repeated (k v : Node) {entries : List (Node × Node)}
    (h : ¬ ∀ e ∈ entries, e.1.sameScalar k = false) :
    Pending.add? ⟨entries, some k⟩ v = none := by
  have hany : entries.any (fun e => e.1.sameScalar k) = true := by simpa using h
  simp [Pending.add?, hany]

/-- The parts make a mapping as long as no key comes that has come before. -/
theorem foldlM_parts {entries taken : List (Node × Node)} (htaken : Distinct taken.reverse)
    (hknown : ∀ e ∈ entries, e.1 ≠ .unknown) :
    (parts entries).foldlM Pending.add? ⟨taken, none⟩ =
      if Distinct (taken.reverse ++ entries) then some ⟨(taken.reverse ++ entries).reverse, none⟩
      else none := by
  induction entries generalizing taken with
  | nil => simp [parts, htaken]
  | cons e rest ih =>
    obtain ⟨he, hrest⟩ := List.forall_mem_cons.mp hknown
    have hcons : taken.reverse ++ e :: rest = (e :: taken).reverse ++ rest := by simp
    have hparts : parts (e :: rest) = e.1 :: e.2 :: parts rest := rfl
    simp only [hparts, List.foldlM_cons, Pending.add?_key he, Option.bind_eq_bind,
      Option.bind_some]
    by_cases hfresh : ∀ d ∈ taken, d.1.sameScalar e.1 = false
    · have htaken' : Distinct (e :: taken).reverse := by
        rw [List.reverse_cons]
        exact List.pairwise_append.mpr
          ⟨htaken, List.pairwise_singleton _ _, fun d hd e' he' => by
            rw [List.mem_singleton.mp he']
            exact hfresh d (List.mem_reverse.mp hd)⟩
      rw [Pending.add?_value _ _ hfresh, Option.bind_some, hcons]
      exact ih htaken' hrest
    · have hrepeats : ¬ Distinct (taken.reverse ++ e :: rest) := fun h =>
        hfresh fun d hd =>
          (List.pairwise_append.mp h).2.2 d (List.mem_reverse.mpr hd) e (by simp)
      rw [if_neg hrepeats, Pending.add?_repeated _ _ hfresh, Option.bind_none]

/-- **The mapping of entries**, if their keys differ. -/
theorem ofParts?_parts {entries : List (Node × Node)} (hknown : ∀ e ∈ entries, e.1 ≠ .unknown) :
    ofParts? (parts entries) = if Distinct entries then some (.mapping entries) else none := by
  have hnil : Distinct ([] : List (Node × Node)).reverse := List.Pairwise.nil
  rw [ofParts?, foldlM_parts hnil hknown, List.reverse_nil, List.nil_append]
  split
  · rw [Option.map_some, List.reverse_reverse]
  · rfl

end Node

/-! ## Reading -/

section Reading

variable (bound levels : Nat) (p : Place) (rest : List Token)

theorem node_scalar (block indentless plain : Bool) (text : String) :
    node bound (levels + 1) block indentless (p.moved (.scalar plain text :: rest)) =
      some (scalar none plain text, p.moved rest) := by
  simp [node, properties, content, Place.complete, Place.moved]

theorem orNull_scalar (w : Written) :
    orNull endsPart (node bound (levels + 1) true true) (p.moved (w.token :: rest)) =
      some (w.node, p.moved rest) :=
  node_scalar bound levels p rest true true w.isPlain (String.ofList w.text)

theorem exists_endsPart (lines : List Line) :
    ∃ t ts, lines.flatMap Line.tokens ++ .blockEnd :: rest = t :: ts ∧ endsPart t = true := by
  induction lines with
  | nil => exact ⟨.blockEnd, rest, rfl, rfl⟩
  | cons x lines ih =>
    cases x with
    | blank trailer => exact ih
    | entry key value trailer => exact ⟨.key, _, rfl, rfl⟩

/-- The value of an entry is read, or there is null in its place. -/
theorem blockValue_entry (value : Option (Nat × Written)) (lines : List Line) :
    blockValue (node bound (levels + 1)) (p.moved (.value ::
        ((value.map fun v => v.2.token).toList ++
          (lines.flatMap Line.tokens ++ .blockEnd :: rest)))) =
      some ((value.map fun v => v.2.node).getD .null,
        p.moved (lines.flatMap Line.tokens ++ .blockEnd :: rest)) := by
  cases value with
  | none =>
    obtain ⟨t, ts, hnext, hends⟩ := exists_endsPart rest lines
    simp [blockValue, orNull, Place.moved, hnext, hends]
  | some v => exact orNull_scalar bound levels p _ v.2

/-- **The entries are read** as keys and values in turn. -/
theorem blockMapping_entries (lines : List Line) {more : Nat} {taken : List Node}
    (hb : (Line.entries lines).length < more) :
    blockMapping (node bound (levels + 1)) more taken
        (p.moved (lines.flatMap Line.tokens ++ .blockEnd :: rest)) =
      some (taken.reverse ++ Node.parts (Line.entries lines), p.moved rest) := by
  induction lines generalizing more taken with
  | nil =>
    obtain ⟨more, rfl⟩ := Nat.exists_eq_succ_of_ne_zero (Nat.ne_zero_of_lt hb)
    simp [blockMapping, Line.entries, Node.parts, Place.moved]
  | cons x lines ih =>
    cases x with
    | blank trailer => exact ih hb
    | entry key value trailer =>
      obtain ⟨more, rfl⟩ := Nat.exists_eq_succ_of_ne_zero (Nat.ne_zero_of_lt hb)
      have htokens : (Line.entry key value trailer :: lines).flatMap Line.tokens ++
          .blockEnd :: rest = .key :: key.token :: .value ::
            ((value.map fun v => v.2.token).toList ++
              (lines.flatMap Line.tokens ++ .blockEnd :: rest)) := by
        simp [Line.tokens, Line.entryTokens]
      have hmoved (ts us : List Token) : (p.moved ts).moved us = p.moved us := rfl
      have hat (ts : List Token) : (p.moved ts).tokens = ts := rfl
      rw [htokens, blockMapping]
      simp only [hat, hmoved, orNull_scalar, blockValue_entry]
      rw [ih (by simpa [Line.entries_cons_entry] using hb)]
      simp [Line.entries_cons_entry, Node.parts]

end Reading

/-! ## Documents -/

theorem node_entries (bound levels : Nat) (lines : List Line)
    (hb : (Line.entries lines).length < bound) :
    node bound (levels + 2) true false
        ⟨.blockMapping :: (lines.flatMap Line.tokens ++ [.blockEnd]), [], [], []⟩ =
      (Node.ofParts? (Node.parts (Line.entries lines))).map fun n => (n, ⟨[], [], [], []⟩) := by
  let place (tokens : List Token) : Place := ⟨tokens, [], [], []⟩
  have hmapping : blockMapping (node bound (levels + 1)) bound []
      (place (lines.flatMap Line.tokens ++ [.blockEnd])) =
        some (Node.parts (Line.entries lines), place []) :=
    blockMapping_entries bound levels (place []) [] lines hb
  have hnode : node bound (levels + 2) true false
      (place (.blockMapping :: (lines.flatMap Line.tokens ++ [.blockEnd]))) =
        ((blockMapping (node bound (levels + 1)) bound []
          (place (lines.flatMap Line.tokens ++ [.blockEnd]))).bind fun x =>
            (Node.ofParts? x.1).map fun n => (n, x.2)).map fun x => (x.1, x.2) := rfl
  rw [hnode, hmapping, Option.bind_some]
  cases Node.ofParts? (Node.parts (Line.entries lines)) <;> rfl

/-- **The documents of the tokens** of lines with entries. -/
theorem documents?_entries {lines : List Line} (h : Line.entries lines ≠ []) :
    documents? (Layout.closing (Line.after [] lines)) =
      (Node.ofParts? (Node.parts (Line.entries lines))).map fun n => [n] := by
  rw [Line.closing_after, if_neg h]
  have hlen := Line.length_entries_le lines
  generalize hts : Token.blockMapping :: (lines.flatMap Line.tokens ++ [.blockEnd]) = ts
  have hbound : (Line.entries lines).length < ts.length + 2 := by
    simp only [← hts, List.length_cons, List.length_append]
    omega
  have hnode := node_entries (ts.length + 2) ts.length lines hbound
  rw [hts] at hnode
  have hdocument : document (ts.length + 2) true ts =
      (Node.ofParts? (Node.parts (Line.entries lines))).map fun n => (n, ⟨[], [], [], []⟩) := by
    rw [← hnode, ← hts]
    rfl
  have hdrop : ts.dropWhile (· = .documentEnd) = ts := by rw [← hts]; rfl
  rw [documents?, documentsFrom, hdrop, ← hts]
  simp only [hts, hdocument]
  cases Node.ofParts? (Node.parts (Line.entries lines)) <;> rfl

theorem Node.ofPlain_cases (spelling : List Char) :
    ofPlain spelling = .null ∨ (∃ b, ofPlain spelling = .bool b) ∨
      (∃ n, ofPlain spelling = .integer n) ∨ (∃ s, ofPlain spelling = .real s) ∨
      ∃ s, ofPlain spelling = .text s := by
  unfold ofPlain
  split
  · simp
  · split
    · simp
    · split
      · simp
      · split <;> simp

theorem Written.node_cases (w : Written) :
    w.node = .null ∨ (∃ b, w.node = .bool b) ∨ (∃ n, w.node = .integer n) ∨
      (∃ s, w.node = .real s) ∨ ∃ s, w.node = .text s := by
  cases w with
  | plain word more => exact Node.ofPlain_cases _
  | quoted mark pieces => exact .inr (.inr (.inr (.inr ⟨_, rfl⟩)))

theorem Written.node_ne_unknown (w : Written) : w.node ≠ .unknown := by
  rcases w.node_cases with h | ⟨b, h⟩ | ⟨n, h⟩ | ⟨s, h⟩ | ⟨s, h⟩ <;> simp [h]

theorem Line.known_entries (lines : List Line) : ∀ e ∈ entries lines, e.1 ≠ .unknown := by
  intro e he
  obtain ⟨x, -, hx⟩ := List.mem_filterMap.mp he
  cases x with
  | blank trailer => cases hx
  | entry key value trailer =>
    obtain rfl := Option.some.inj hx
    exact key.node_ne_unknown

/-- **The documents of a flat text**: one mapping, unless there is nothing to map. -/
theorem documents?_text (lines : List Line) :
    documents? (Layout.closing (Line.after [] lines)) =
      if Line.entries lines = [] then some []
      else if Node.Distinct (Line.entries lines) then some [.mapping (Line.entries lines)]
      else none := by
  by_cases h : Line.entries lines = []
  · rw [if_pos h, Line.closing_after, if_pos h]
    rfl
  · rw [if_neg h, documents?_entries h, Node.ofParts?_parts (Line.known_entries lines)]
    split <;> rfl

end RecordFilter.Yaml
