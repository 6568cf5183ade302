import Mathlib
import RecordFilter.Condition.Eval
import RecordFilter.Proofs.Json.Exact
import RecordFilter.Proofs.Json.OneMember
import RecordFilter.Proofs.Printing.RoundTrip

/-!
# Numbers in expressions and in records

The same number text, once as the literal of a relation and once as a field of a record. The literal
is an integer of 64 bits, or else the number of the format nearest to the text; if that is infinite,
the text is no number but a string. The field is the number that is read in steps. So the two are
equal when the steps lead to the nearest number, which they do for integers of less than 64 bits,
for zero, and for digits of at most 53 bits times a power of ten from `10 ^ -22` to `10 ^ 22`; but
not for `3e23`.

* `ofNumeral?_text`: the literal;
* `compare_literal`: the field compares with the literal as with the nearest number;
* `holds_oneNumber`: relations between the two.
-/

namespace RecordFilter.Json.NumberText

open Numeral Binary64

variable (t : NumberText)

/-! ## The literal -/

theorem splitSign_text : splitSign t.text = (t.negative, t.unsignedText) :=
  splitSign_signed (beginsDigit_append t.nonempty t.wholeDigits _) t.negative

theorem exponent?_text : exponent? t.exponentText = some t.exponentValue := by
  rw [exponentText, exponentValue]
  cases t.exponent with
  | none => rfl
  | some e =>
    have hmark : (e.mark = 'e' || e.mark = 'E') = true := by simpa using e.isMark
    have hsplit := e.splitSign_append []
    rw [List.append_nil] at hsplit
    have hall : e.digits.all Char.isDigit = true := List.all_eq_true.mpr e.allDigits
    show exponent? (e.mark :: (e.sign ++ e.digits)) = some e.value
    rw [exponent?, if_pos hmark, integer?, hsplit]
    dsimp only
    rw [natural?, hall]
    simp [e.nonempty, Exponent.value]

theorem decimal?_text : decimal? t.text = some t.nearest := by
  have hnil : EndsNumber [] := nofun
  have hend := t.endsDigits_exponentText hnil.endsDigits
  have hpoint := t.head?_exponentText hnil
  rw [List.append_nil] at hend hpoint
  have hread : unsigned? t.unsignedText = some t.decimal := by
    rw [unsignedText, fractionText]
    by_cases hfraction : t.fraction = []
    · rw [if_pos hfraction, List.nil_append,
        unsigned?_whole t.nonempty t.wholeDigits hend hpoint, exponent?_text]
      simp [decimal, hfraction]
    · rw [if_neg hfraction, List.cons_append,
        unsigned?_point t.nonempty t.wholeDigits t.fractionDigits hend, exponent?_text]
      rfl
  rw [decimal?, splitSign_text]
  dsimp only
  rw [hread]
  rfl

theorem natural?_unsignedText : natural? t.unsignedText =
    if t.IsInteger then some t.decimal.significand else none := by
  rcases t.integer_or_begins [] with ⟨hinteger, htail⟩ | ⟨hinteger, c, cs, hc, htail⟩
  · have hall : t.whole.all Char.isDigit = true := List.all_eq_true.mpr t.wholeDigits
    rw [List.append_nil] at htail
    rw [unsignedText, htail, List.append_nil, if_pos hinteger, natural?, hall]
    simp [t.nonempty, decimal, hinteger.1]
  · rw [List.append_nil] at htail
    rw [unsignedText, htail, if_neg hinteger, natural?]
    have hdigit : c.isDigit = false := by rcases hc with rfl | rfl | rfl <;> rfl
    simp [hdigit]

theorem integer64?_text : integer64? t.text =
    if t.IsInteger then toInt64? (signed t.negative t.decimal.significand) else none := by
  rw [integer64?, integer?, splitSign_text]
  dsimp only
  rw [natural?_unsignedText]
  split <;> rfl

/-- The literal is an integer of 64 bits if the text spells one, and else the nearest number if that
is finite. -/
theorem ofNumeral?_text : Value.ofNumeral? t.text =
    ((integer64? t.text).map Value.integer).or
      (if t.nearest.isFinite then some (.float t.nearest) else none) := by
  obtain ⟨c, cs, hcs, hc⟩ := beginsDigit_append t.nonempty t.wholeDigits
    (t.fractionText ++ t.exponentText)
  have hpoint : c ≠ '.' := by
    rintro rfl
    cases hc
  rw [Value.ofNumeral?, splitSign_text, decimal?_text, unsignedText, hcs]
  cases integer64? t.text <;> simp [hpoint, hc]

/-- The literal that the text is where one is awaited: a string when the number is too large. -/
def literal : Value := (Value.ofNumeral? t.text).getD (.string (String.ofList t.text))

/-! ## Comparing the field with the literal -/

variable {t}

theorem value?_number (n : Number) :
    ∃ v, Record.value? (.number n) = some v ∧ ∀ s, v ≠ .string s := by
  cases n with
  | integer i => exact ⟨_, rfl, nofun⟩
  | natural m => exact ⟨_, rfl, nofun⟩
  | real x => exact ⟨_, rfl, nofun⟩

theorem isExact_of_integer64? {i : Int64} (h : integer64? t.text = some i) : t.IsExact := by
  rw [integer64?_text] at h
  obtain ⟨hinteger, hi⟩ := Option.ite_none_right_eq_some.mp h
  have hvalue := toInt_of_toInt64? hi
  have hlow := i.le_toInt
  have hhigh := i.toInt_lt
  refine Or.inl ⟨hinteger, ?_⟩
  have hsize : UInt64.size = 2 ^ 64 := rfl
  rw [Numeral.signed] at hvalue
  split at hvalue <;> omega

/-- **The field compares with the literal as with the nearest number**, and not at all when that is
infinite. -/
theorem compare_literal {n : Number} (hn : t.number? = some n) {v : Value}
    (hv : Record.value? (.number n) = some v) :
    v.compare t.literal = if t.nearest.isFinite then v.compare (.float t.nearest) else none := by
  rw [literal, ofNumeral?_text]
  cases hi : integer64? t.text with
  | some i =>
    have hexact := isExact_of_integer64? hi
    obtain ⟨hfloat, hinteger⟩ := compare_nearest hexact hn hv
    rw [integer64?_text] at hi
    obtain ⟨h, hi⟩ := Option.ite_none_right_eq_some.mp hi
    rw [hexact.isFinite_nearest, if_pos rfl, hfloat]
    exact hinteger i h hi
  | none =>
    by_cases hfinite : t.nearest.isFinite = true
    · rw [if_pos hfinite, if_pos hfinite]
      rfl
    · rw [if_neg hfinite, if_neg hfinite]
      obtain ⟨w, hw, hstring⟩ := value?_number n
      cases hv.symm.trans hw
      cases v with
      | string s => exact absurd rfl (hstring s)
      | integer i => rfl
      | float x => rfl

/-! ## The relation -/

theorem isWordChar_digits {ds : List Char} (hds : AllDigits ds) :
    ∀ c ∈ ds, Lexeme.isWordChar c = true := fun c hc =>
  Lexeme.isWordChar_of_numeral (Or.inl (hds c hc))

theorem isWordChar_exponentText (t : NumberText) :
    ∀ c ∈ t.exponentText, Lexeme.isWordChar c = true := by
  rw [exponentText]
  cases t.exponent with
  | none => exact fun c hc => absurd hc List.not_mem_nil
  | some e =>
    refine List.forall_mem_cons.mpr ⟨?_, List.forall_mem_append.mpr ⟨?_, ?_⟩⟩
    · rcases e.isMark with h | h <;> rw [h] <;> decide
    · rcases e.isSign with h | h | h <;> simp [h, show Lexeme.isWordChar '+' = true by decide,
        show Lexeme.isWordChar '-' = true by decide]
    · exact isWordChar_digits e.allDigits

theorem isWordChar_text (t : NumberText) : ∀ c ∈ t.text, Lexeme.isWordChar c = true := by
  have hfraction : ∀ c ∈ t.fractionText, Lexeme.isWordChar c = true := by
    rw [fractionText]
    split
    · exact fun c hc => absurd hc List.not_mem_nil
    · exact List.forall_mem_cons.mpr ⟨by decide, isWordChar_digits t.fractionDigits⟩
  have hunsigned : ∀ c ∈ t.unsignedText, Lexeme.isWordChar c = true :=
    List.forall_mem_append.mpr ⟨isWordChar_digits t.wholeDigits,
      List.forall_mem_append.mpr ⟨hfraction, t.isWordChar_exponentText⟩⟩
  rw [text]
  split
  · exact List.forall_mem_cons.mpr ⟨by decide, hunsigned⟩
  · exact hunsigned

theorem readAll_text (t : NumberText) (ignoreCase : Bool) :
    Lexeme.readAll ignoreCase true t.text = ([.literal t.literal], []) := by
  obtain ⟨c, cs, htext, hc⟩ := t.text_begins
  have hend : Lexeme.EndsWord [] := nofun
  have hne : t.text ≠ [] := htext ▸ List.cons_ne_nil c cs
  have hread := Lexeme.read?_word hne t.isWordChar_text hend
  rw [List.append_nil] at hread
  have hkeyword : Token.keyword? ignoreCase t.text = none := by
    rw [htext]
    exact Lexeme.keyword?_eq_none_of_begins (hc.imp_right fun h => Or.inr (Or.inl h)) _ _
  have htoken : (Lexeme.word t.text).toToken ignoreCase true = .literal t.literal := by
    rw [Lexeme.toToken, hkeyword, literal]
    cases Value.ofNumeral? t.text <;> rfl
  rw [Lexeme.readAll_of_read? hread htoken rfl, Lexeme.readAll_blank rfl]
  rfl

end RecordFilter.Json.NumberText

namespace RecordFilter.Condition

open Json Grammar

/-- A relation of the field to the literal that the number text is. -/
theorem parse_relation {ignoreCase : Bool} {field : String} (hfield : IsField ignoreCase field)
    (t : NumberText) (c : Comparison) :
    parse ignoreCase (field ++ " " ++ c.name ++ " " ++ String.ofList t.text) =
      .ok (some (.relation c field t.literal)) := by
  have htext : (field ++ " " ++ c.name ++ " " ++ String.ofList t.text).toList =
      field.toList ++ ' ' :: (c.name.toList ++ ' ' :: t.text) := by
    simp [String.toList_append]
  rw [parse_eq_some_iff, htext, Lexeme.readAll_field hfield, Lexeme.readAll_comparison,
    t.readAll_text]
  refine ⟨rfl, (canonical (.relation c field t.literal)).alone, ?_⟩
  rw [phrase_alone, phrase_canonical]
  exact ⟨rfl, Nat.zero_le _, (by decide : 1 ≤ maxRelations), rfl⟩

end RecordFilter.Condition

namespace RecordFilter.Record

open Json

/-- **Relations between a number and its own text.** Let a record hold the number with the given
text as its only field. Then the text is a literal in expressions, and every relation between the
field and this literal holds as it would between the field and the number nearest to the text, if
that is finite. When the number can be read exactly, the two are equal in every relation. -/
theorem holds_oneNumber {ignoreCase : Bool} {field : String} (hfield : IsField ignoreCase field)
    (hplain : IsPlain field.toList) (t : NumberText) {fields : Fields}
    (h : ofLine (oneNumber field t) = some fields) :
    ∃ literal v, fields.lookup field = some v ∧
      (∀ c : Comparison,
        Condition.parse ignoreCase (field ++ " " ++ c.name ++ " " ++ String.ofList t.text) =
            .ok (some (.relation c field literal)) ∧
          (Condition.relation c field literal).holds fields =
            c.holds (if t.nearest.isFinite then v.compare (.float t.nearest) else none)) ∧
      (t.IsExact → ∀ c : Comparison,
        (Condition.relation c field literal).holds fields = c.holds (some .eq)) := by
  obtain ⟨n, hn, hlookup⟩ := lookup_of_ofLine hplain h
  obtain ⟨v, hv, -⟩ := NumberText.value?_number n
  have hholds : ∀ c : Comparison, (Condition.relation c field t.literal).holds fields =
      c.holds (if t.nearest.isFinite then v.compare (.float t.nearest) else none) := by
    intro c
    rw [Condition.holds, hlookup, hv, ← NumberText.compare_literal hn hv]
  refine ⟨t.literal, v, hlookup.trans hv, fun c => ⟨?_, hholds c⟩, fun hexact c => ?_⟩
  · exact Condition.parse_relation hfield t c
  · rw [hholds, if_pos hexact.isFinite_nearest, (NumberText.compare_nearest hexact hn hv).1]

/-- The number `3e23`, whose power of ten is not a number of the format. -/
def threeE23 : NumberText where
  negative := false
  whole := ['3']
  fraction := []
  exponent := some ⟨'e', [], ['2', '3'], Or.inl rfl, Or.inl rfl, by decide,
    List.all_eq_true.mp (by decide)⟩
  nonempty := by decide
  wholeDigits := List.all_eq_true.mp (by decide)
  fractionDigits := nofun
  noLeadingZero := by decide

/-- A record with the number `3e23` does not meet `f eq 3e23`: the field is read as the next smaller
number. -/
theorem holds_threeE23 :
    IsField false "f" ∧ IsPlain "f".toList ∧
      ∃ fields literal, ofLine "\x7b\"f\":3e23\x7d" = some fields ∧
        Condition.parse false "f eq 3e23" = .ok (some (.relation .eq "f" literal)) ∧
        (Condition.relation .eq "f" literal).holds fields = false ∧
        (Condition.relation .lt "f" literal).holds fields = true := by
  have hfield : IsField false "f" :=
    ⟨by decide, List.all_eq_true.mp (by decide), by decide, by decide⟩
  have hplain : IsPlain "f".toList := by simp [IsPlain]
  have hread : ((ofLine (oneNumber "f" threeE23)).bind fun fields => fields.lookup "f").bind
      (fun v => if threeE23.nearest.isFinite then v.compare (.float threeE23.nearest) else none) =
        some .lt := by decide +kernel
  obtain ⟨v, hv, horder⟩ := Option.bind_eq_some_iff.mp hread
  obtain ⟨fields, hfields, hlookup⟩ := Option.bind_eq_some_iff.mp hv
  obtain ⟨literal, w, hw, hrelation, -⟩ := holds_oneNumber hfield hplain threeE23 hfields
  cases hlookup.symm.trans hw
  rw [horder] at hrelation
  exact ⟨hfield, hplain, fields, literal, hfields, (hrelation .eq).1, (hrelation .eq).2,
    (hrelation .lt).2⟩

end RecordFilter.Record
