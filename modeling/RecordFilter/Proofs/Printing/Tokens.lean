import Mathlib
import RecordFilter.Proofs.Decimal.ReadBack
import RecordFilter.Proofs.Lexing.Forms

/-!
# Fields and literals are read back

A literal can be **written** unless it is a string that holds both quotation marks, which no marks
fit around, or an infinity or "not a number", which have no numerals. A field can be written when it
is a word that is neither a keyword nor a numeral. What is written is one lexeme and stands for what
it was written for; and whatever a lexeme stands for can be written.

* `ofNumeral?_ofInt`, `ofNumeral?_text`: numbers are read back, the same in kind and value;
* `read?_literal`, `read?_field`: the lexemes of literals and fields;
* `writable_of_toToken`: the literals and fields that lexemes stand for can be written.
-/

namespace RecordFilter

/-! ## Numbers -/

namespace Value

open Numeral Binary64

theorem toInt64?_toInt (n : Int64) : toInt64? n.toInt = some n := by
  have hlow := n.le_toInt
  have hhigh := n.toInt_lt
  rw [toInt64?, if_pos ⟨by omega, by omega⟩, Int64.ofInt_toInt]

section Words
variable {word body : List Char} {negative : Bool}

theorem ofNumeral?_integer (hword : splitSign word = (negative, body)) (hbody : BeginsDigit body)
    {n : Int64} (hn : integer64? word = some n) : ofNumeral? word = some (.integer n) := by
  obtain ⟨c, rest, rfl, hc⟩ := hbody
  have hpoint : c ≠ '.' := by
    rintro rfl
    cases hc
  rw [ofNumeral?, hword, hn]
  simp [hpoint, hc]

theorem ofNumeral?_float (hword : splitSign word = (negative, body)) (hbody : BeginsDigit body)
    (hn : integer64? word = none) {x : Binary64} (hx : decimal? word = some x)
    (hfinite : x.isFinite = true) : ofNumeral? word = some (.float x) := by
  obtain ⟨c, rest, rfl, hc⟩ := hbody
  have hpoint : c ≠ '.' := by
    rintro rfl
    cases hc
  rw [ofNumeral?, hword, hn, hx]
  simp [hpoint, hc, hfinite]

end Words

theorem ofNumeral?_ofInt (n : Int64) :
    ofNumeral? (Numeral.ofInt n.toInt) = some (.integer n) := by
  refine ofNumeral?_integer (splitSign_ofInt n.toInt) (beginsDigit_toDigits _) ?_
  rw [integer64?, integer?_ofInt, Option.bind_some, toInt64?_toInt]

theorem ofNumeral?_text {x : Binary64} (hx : x.isFinite = true) :
    ofNumeral? (x.text .literal).toList = some (.float x) := by
  cases x with
  | nan => cases hx
  | signed negative r =>
    have hspells : Decimal.Spells (r.text .literal) r :=
      Decimal.spells_text (by simpa [isFinite] using hx)
    have hsplit := splitSign_signed hspells.begins negative
    obtain ⟨d, hread, hd⟩ := hspells.reads
    rw [Binary64.text, String.toList_ofList]
    refine ofNumeral?_float hsplit hspells.begins ?_ ?_ hx
    · have hnatural : natural? (r.text .literal) = none := by
        refine if_pos ?_
        have := hspells.notWhole
        simp [AllDigits] at this
        simp [this]
      rw [integer64?, integer?, hsplit]
      dsimp only
      rw [hnatural]
      rfl
    · rw [decimal?, hsplit]
      dsimp only
      rw [hread, Option.map_some, Decimal.toBinary64, hd]

theorem text_chars {x : Binary64} (hx : x.isFinite = true) :
    ∀ c ∈ (x.text .literal).toList, c.isDigit = true ∨ c = '.' ∨ c = 'e' ∨ c = '-' := by
  cases x with
  | nan => cases hx
  | signed negative r =>
    have hspells : Decimal.Spells (r.text .literal) r :=
      Decimal.spells_text (by simpa [isFinite] using hx)
    rw [Binary64.text, String.toList_ofList]
    split
    · exact List.forall_mem_cons.mpr ⟨Or.inr (Or.inr (Or.inr rfl)), hspells.chars⟩
    · exact hspells.chars

/-! ## What can be written -/

/-- There is a text for the literal in expressions. -/
def Writable : Value → Prop
  | .string s => '"' ∉ s.toList ∨ '\'' ∉ s.toList
  | .integer _ => True
  | .float x => x.isFinite = true

theorem writable_of_ofNumeral? {word : List Char} {v : Value} (h : ofNumeral? word = some v) :
    v.Writable := by
  unfold ofNumeral? at h
  obtain ⟨-, h⟩ := Option.ite_none_right_eq_some.mp h
  split at h
  · cases h
    trivial
  · split at h
    · obtain ⟨hfinite, heq⟩ := Option.ite_none_right_eq_some.mp h
      cases heq
      exact hfinite
    · cases h

end Value

/-- The name is a word that is a field in expressions. -/
structure IsField (ignoreCase : Bool) (name : String) : Prop where
  nonempty : name.toList ≠ []
  word : ∀ c ∈ name.toList, Lexeme.isWordChar c = true
  not_keyword : Token.keyword? ignoreCase name.toList = none
  not_numeral : Value.ofNumeral? name.toList = none

/-- The field or literal can be written, if the token is one. -/
def Token.Writable (ignoreCase : Bool) : Token → Prop
  | .field name => IsField ignoreCase name
  | .literal v => v.Writable
  | _ => True

namespace Lexeme

/-! ## Numerals are words -/

theorem forall_digit (P : Char → Prop)
    (h : ∀ n < 58, 48 ≤ n → P (Char.ofNat n)) {c : Char} (hc : c.isDigit = true) : P c := by
  simp only [Char.isDigit, Bool.and_eq_true, decide_eq_true_eq] at hc
  have hnat := h c.toNat (Nat.lt_succ_of_le hc.2) hc.1
  rwa [Char.ofNat_toNat] at hnat

theorem isWordChar_of_numeral {c : Char}
    (hc : c.isDigit = true ∨ c = '.' ∨ c = 'e' ∨ c = '-') : isWordChar c = true := by
  rcases hc with hc | rfl | rfl | rfl
  · exact forall_digit (isWordChar · = true) (by decide) hc
  · decide
  · decide
  · decide

/-- The character is a digit, a sign or a point. -/
def beginsNumeral (c : Char) : Prop := c.isDigit = true ∨ c = '+' ∨ c = '-' ∨ c = '.'

theorem beginsNumeral_of_ofNumeral? {c : Char} {cs : List Char} {v : Value}
    (h : Value.ofNumeral? (c :: cs) = some v) : beginsNumeral c := by
  apply Classical.byContradiction
  intro hc
  simp only [beginsNumeral, not_or] at hc
  have hsplit : Numeral.splitSign (c :: cs) = (false, c :: cs) := by
    unfold Numeral.splitSign
    split
    · next heq => exact absurd (List.cons.inj heq).1 hc.2.1
    · next heq => exact absurd (List.cons.inj heq).1 hc.2.2.1
    · rfl
  rw [Value.ofNumeral?, hsplit] at h
  simp [hc.2.2.2, hc.1] at h

theorem keyword?_eq_none_of_begins {c : Char} (hc : beginsNumeral c) (ignoreCase : Bool)
    (cs : List Char) : Token.keyword? ignoreCase (c :: cs) = none := by
  have hlower : c.toLower = c := by
    rcases hc with hc | rfl | rfl | rfl
    · exact forall_digit (fun c => c.toLower = c) (by decide) hc
    all_goals decide
  have hletter : ∀ p ∈ Token.keywords, p.1.head? ≠ some c := by
    rcases hc with hc | rfl | rfl | rfl
    · exact forall_digit (fun c => ∀ p ∈ Token.keywords, p.1.head? ≠ some c) (by decide) hc
    all_goals decide
  have hhead : (if ignoreCase then (c :: cs).map Char.toLower else c :: cs).head? = some c := by
    cases ignoreCase <;> simp [hlower]
  refine List.lookup_eq_none_iff.mpr fun p hp => bne_iff_ne.mpr fun heq => hletter p hp ?_
  rw [← heq, hhead]

theorem keyword?_eq_none {w : List Char} {v : Value} (hv : Value.ofNumeral? w = some v)
    (ignoreCase : Bool) : Token.keyword? ignoreCase w = none := by
  cases w with
  | nil => cases hv
  | cons c cs => exact keyword?_eq_none_of_begins (beginsNumeral_of_ofNumeral? hv) ignoreCase cs

/-! ## Lexemes -/

section Lexemes
variable {rest : List Char}

theorem read?_quote {s : String} (hs : (Value.string s).Writable) (rest : List Char) :
    read? ((Value.quote s).toList ++ rest) = some (.quoted s.toList, rest) := by
  unfold Value.quote
  split
  · next hdouble =>
    have hsingle : '\'' ∉ s.toList := hs.resolve_left fun h => h hdouble
    rw [String.toList_ofList, List.append_assoc]
    exact read?_quoted (Or.inr rfl) hsingle rest
  · next hdouble =>
    rw [String.toList_ofList, List.append_assoc]
    exact read?_quoted (Or.inl rfl) hdouble rest

/-- A numeral is one word, and stands for its number. -/
theorem read?_numeral {w : List Char} {v : Value} (hv : Value.ofNumeral? w = some v)
    (hw : ∀ c ∈ w, c.isDigit = true ∨ c = '.' ∨ c = 'e' ∨ c = '-') (hrest : EndsWord rest) :
    read? (w ++ rest) = some (.word w, rest) ∧
      ∀ ignoreCase awaitsLiteral,
        (Lexeme.word w).toToken ignoreCase awaitsLiteral = .literal v := by
  have hne : w ≠ [] := by
    rintro rfl
    cases hv
  refine ⟨read?_word hne (fun c hc => isWordChar_of_numeral (hw c hc)) hrest, fun _ _ => ?_⟩
  simp only [toToken, keyword?_eq_none hv, hv]

theorem read?_literal {v : Value} (hv : v.Writable) (hrest : EndsWord rest) :
    ∃ l : Lexeme, read? (v.text.toList ++ rest) = some (l, rest) ∧
      ∀ ignoreCase awaitsLiteral, l.toToken ignoreCase awaitsLiteral = .literal v := by
  cases v with
  | string s =>
    refine ⟨_, read?_quote hv rest, fun _ _ => ?_⟩
    rw [toToken, String.ofList_toList]
  | integer n =>
    rw [Value.text, String.toList_ofList]
    refine ⟨_, read?_numeral (Value.ofNumeral?_ofInt n) (fun c hc => ?_) hrest⟩
    exact (Numeral.ofInt_chars _ c hc).imp_right fun h => Or.inr (Or.inr h)
  | float x =>
    exact ⟨_, read?_numeral (Value.ofNumeral?_text hv) (Value.text_chars hv) hrest⟩

theorem read?_field {ignoreCase : Bool} {f : String} (hf : IsField ignoreCase f)
    (hrest : EndsWord rest) :
    read? (f.toList ++ rest) = some (.word f.toList, rest) ∧
      (Lexeme.word f.toList).toToken ignoreCase false = .field f := by
  refine ⟨read?_word hf.nonempty hf.word hrest, ?_⟩
  simp [toToken, hf.not_keyword, hf.not_numeral]

theorem toToken_symbol (t : Token) (ignoreCase awaitsLiteral : Bool) :
    (Lexeme.symbol t).toToken ignoreCase awaitsLiteral = t := rfl

theorem toToken_connective (c : Connective) (ignoreCase awaitsLiteral : Bool) :
    (Lexeme.word c.name.toList).toToken ignoreCase awaitsLiteral = .connective c := by
  cases c <;> cases ignoreCase <;> rfl

theorem toToken_comparison (c : Comparison) (ignoreCase awaitsLiteral : Bool) :
    (Lexeme.word c.name.toList).toToken ignoreCase awaitsLiteral = .comparison c := by
  cases c <;> cases ignoreCase <;> rfl

theorem read?_connective (c : Connective) (hrest : EndsWord rest) :
    read? (c.name.toList ++ rest) = some (.word c.name.toList, rest) := by
  have hword : c.name.toList.all isWordChar = true := by cases c <;> rfl
  exact read?_word (by cases c <;> decide) (List.all_eq_true.mp hword) hrest

theorem read?_comparison (c : Comparison) (hrest : EndsWord rest) :
    read? (c.name.toList ++ rest) = some (.word c.name.toList, rest) := by
  have hword : c.name.toList.all isWordChar = true := by cases c <;> rfl
  exact read?_word (by cases c <;> decide) (List.all_eq_true.mp hword) hrest

end Lexemes

/-! ## What lexemes stand for -/

theorem writable_of_toToken {text rest : List Char} {l : Lexeme} (h : read? text = some (l, rest))
    (ignoreCase awaitsLiteral : Bool) :
    (l.toToken ignoreCase awaitsLiteral).Writable ignoreCase := by
  have hsymbols : ∀ p ∈ Token.symbols, p.2.Writable ignoreCase := by
    simp [Token.symbols, Token.Writable]
  have hkeywords : ∀ p ∈ Token.keywords, p.2.Writable ignoreCase := by
    simp [Token.keywords, Token.Writable]
  rcases read?_cases h with h | h | h
  · obtain ⟨s, t, hmem, rfl, -⟩ := symbol?_eq_some h
    exact hsymbols _ hmem
  · obtain ⟨mark, content, hmark, hcontent, rfl, -⟩ := quoted?_eq_some h
    rw [toToken, Token.Writable, Value.Writable, String.toList_ofList]
    rcases hmark with rfl | rfl
    · exact Or.inl hcontent
    · exact Or.inr hcontent
  · obtain ⟨w, hne, hw, rfl, -⟩ := word?_eq_some h
    simp only [toToken]
    split
    · next token hk =>
      obtain ⟨l₁, l₂, heq, -⟩ := List.lookup_eq_some_iff.mp hk
      exact hkeywords _ (heq ▸ List.mem_append_right _ List.mem_cons_self)
    · next hk =>
      split
      · next v hv => exact Value.writable_of_ofNumeral? hv
      · next hv =>
        split
        · rw [Token.Writable, Value.Writable, String.toList_ofList]
          exact Or.inl fun hmem => not_isMark_of_isWordChar (hw _ hmem) (Or.inl rfl)
        · rw [Token.Writable]
          refine ⟨?_, ?_, ?_, ?_⟩ <;> rwa [String.toList_ofList]

end Lexeme

end RecordFilter
