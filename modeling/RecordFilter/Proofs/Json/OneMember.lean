import Mathlib
import RecordFilter.Record
import RecordFilter.Proofs.Json.NumberText
import RecordFilter.Proofs.Printing.Tokens

/-!
# Objects with one member

The line of an object with one member, a number under a name that needs no escapes. It holds a
record when the number is one that can be read, and that number is the only field.

* `stringAfter_plain`: a name without escapes is read up to its quotation mark;
* `valueWith_text`: a number is read as a value;
* `lookup_of_ofLine`: the field of the record.
-/

namespace RecordFilter.Json

/-! ## Names -/

/-- The text needs no escapes between quotation marks. -/
def IsPlain (text : List Char) : Prop :=
  ∀ c ∈ text, c ≠ '"' ∧ c ≠ '\\' ∧ 0x20 ≤ c.toNat

/-- A text without escapes is read up to its quotation mark. -/
theorem stringAfter_plain {text : List Char} (htext : IsPlain text) (rest : List Char) :
    ∀ (bound : Nat) (taken : List Char), text.length < bound →
      stringAfter bound taken (text ++ '"' :: rest) =
        some (String.ofList (taken.reverse ++ text), rest) := by
  induction text with
  | nil =>
    rintro (- | bound) taken hbound
    · exact absurd hbound (Nat.not_lt_zero _)
    · simp [stringAfter]
  | cons c cs ih =>
    rintro (- | bound) taken hbound
    · exact absurd hbound (Nat.not_lt_zero _)
    · obtain ⟨⟨hquote, hescape, hcontrol⟩, hcs⟩ := List.forall_mem_cons.mp htext
      rw [List.cons_append, stringAfter, if_neg hquote, if_neg hescape,
        if_neg (Nat.not_lt.mpr hcontrol), ih hcs _ _ (Nat.lt_of_succ_lt_succ hbound)]
      simp

/-! ## Numbers -/

theorem NumberText.text_begins (t : NumberText) :
    ∃ c cs, t.text = c :: cs ∧ (c.isDigit = true ∨ c = '-') := by
  obtain ⟨c, cs, hcs, hc⟩ := Numeral.beginsDigit_append t.nonempty t.wholeDigits
    (t.fractionText ++ t.exponentText)
  rw [text]
  cases t.negative with
  | true => exact ⟨'-', _, rfl, Or.inr rfl⟩
  | false => exact ⟨c, cs, hcs, Or.inl hc⟩

theorem skipSpace_cons {c : Char} (hc : isSpace c = false) (cs : List Char) :
    skipSpace (c :: cs) = c :: cs := by
  rw [skipSpace, List.dropWhile_cons, hc]
  rfl

/-- A number is read as a value, whatever the readers of arrays and objects. -/
theorem valueWith_text (t : NumberText) {rest : List Char} (hrest : EndsNumber rest) (bound : Nat)
    (arrays objects : Reader Json) :
    valueWith bound arrays objects (t.text ++ rest) =
      t.number?.map fun n => (.number n, rest) := by
  have hread := Number.read?_text t hrest
  obtain ⟨c, cs, htext, hc⟩ := t.text_begins
  obtain ⟨hspace, hstring, harray, hobject, hnull, htrue, hfalse⟩ : isSpace c = false ∧
      c ≠ '"' ∧ c ≠ '[' ∧ c ≠ '\x7b' ∧ 'n' ≠ c ∧ 't' ≠ c ∧ 'f' ≠ c := by
    rcases hc with hc | rfl
    · exact Lexeme.forall_digit (fun c => isSpace c = false ∧
        c ≠ '"' ∧ c ≠ '[' ∧ c ≠ '\x7b' ∧ 'n' ≠ c ∧ 't' ≠ c ∧ 'f' ≠ c) (by decide) hc
    · decide
  have hskip : skipSpace (t.text ++ rest) = t.text ++ rest := by
    rw [htext, List.cons_append, skipSpace_cons hspace]
  have hword : word? (t.text ++ rest) = none := by
    rw [htext]
    simp [word?, words, Text.dropPrefix?, hnull, htrue, hfalse]
  rw [valueWith, hskip]
  split
  · next h => exact absurd (List.cons.inj (htext ▸ h)).1 hstring
  · next h => exact absurd (List.cons.inj (htext ▸ h)).1 harray
  · next h => exact absurd (List.cons.inj (htext ▸ h)).1 hobject
  · rw [hword]
    dsimp only
    rw [hread, Option.map_map]
    rfl

theorem value_text (t : NumberText) {rest : List Char} (hrest : EndsNumber rest) (bound : Nat) :
    ∀ levels, value bound levels (t.text ++ rest) = t.number?.map fun n => (.number n, rest)
  | 0 => valueWith_text t hrest bound _ _
  | _ + 1 => valueWith_text t hrest bound _ _

/-! ## Objects -/

/-- The object whose only member is the number under the name. -/
def oneMember (name : List Char) (t : NumberText) : List Char :=
  '\x7b' :: '"' :: (name ++ '"' :: ':' :: (t.text ++ ['\x7d']))

theorem endsNumber_brace : EndsNumber ['\x7d'] := by
  rintro c ⟨⟩
  decide

theorem member_of_stringAfter {bound : Nat} {element : Reader Json} {text rest : List Char}
    {name : String} (h : stringAfter bound [] text = some (name, ':' :: rest)) :
    member bound element ('"' :: text) = (element rest).map fun (v, r) => ((name, v), r) := by
  simp [member, skipSpace_cons, h, isSpace]

theorem objectAfter_of_member {bound : Nat} {element : Reader Json} {text : List Char}
    {found : Option (String × Json)}
    (h : member (bound + 1) element ('"' :: text) = found.map fun m => (m, ['\x7d'])) :
    objectAfter (bound + 1) element ('"' :: text) = found.map fun m => (.object [m], []) := by
  cases found with
  | none => simp [objectAfter, skipSpace_cons, isSpace, membersAfter, h]
  | some m => simp [objectAfter, skipSpace_cons, isSpace, membersAfter, h]

theorem value_object (bound levels : Nat) (text : List Char) :
    value bound (levels + 1) ('\x7b' :: text) =
      objectAfter bound (value bound levels) text := by
  rw [value_succ, valueWith, skipSpace_cons rfl]
  rfl

theorem parse?_oneMember {name : List Char} (hname : IsPlain name) (t : NumberText) :
    parse? (oneMember name t) =
      t.number?.map fun n => .object [(String.ofList name, .number n)] := by
  have hbound : name.length < (oneMember name t).length + 1 := by
    simp [oneMember]
    omega
  have hmember : member ((oneMember name t).length + 1)
      (value ((oneMember name t).length + 1) 126)
      ('"' :: (name ++ '"' :: ':' :: (t.text ++ ['\x7d']))) =
        (t.number?.map fun n => (String.ofList name, .number n)).map fun m => (m, ['\x7d']) := by
    rw [member_of_stringAfter (stringAfter_plain hname _ _ _ hbound),
      value_text t endsNumber_brace, Option.map_map, Option.map_map]
    rfl
  have hobject := objectAfter_of_member hmember
  rw [parse?, maxNesting]
  generalize (oneMember name t).length + 1 = bound at hobject
  rw [oneMember, value_object, hobject]
  cases t.number? <;> rfl

end RecordFilter.Json

namespace RecordFilter.Record

open Json

/-- The line of a record whose only member is the number under the name. -/
def oneNumber (name : String) (t : NumberText) : String :=
  "\x7b\"" ++ name ++ "\":" ++ String.ofList t.text ++ "\x7d"

theorem lookup_of_ofLine {name : String} (hname : IsPlain name.toList) {t : NumberText}
    {fields : Fields} (h : ofLine (oneNumber name t) = some fields) :
    ∃ n, t.number? = some n ∧ fields.lookup name = value? (.number n) := by
  have hline : (oneNumber name t).toList = oneMember name.toList t := by
    simp [oneNumber, oneMember, String.toList_append]
  rw [ofLine, hline, parse?_oneMember hname] at h
  cases hn : t.number? with
  | none =>
    rw [hn] at h
    cases h
  | some n =>
    rw [hn] at h
    cases h
    refine ⟨n, rfl, ?_⟩
    rw [fieldsOf, List.foldl_cons, List.foldl_nil, Fields.lookup_set]
    simp

end RecordFilter.Record
