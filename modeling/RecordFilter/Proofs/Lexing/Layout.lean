import Mathlib
import RecordFilter.Proofs.Lexing.Sequence
import RecordFilter.Proofs.Lexing.Spelling

/-!
# Layouts

A text is **written** from pieces by putting gaps around them. A gap is white space of any kind and
length; it may be missing except between two words, and between one of `=`, `>` and `<` and a piece
that begins with an equals sign. The tokens of such a text are those that its pieces stand for, one
for each piece: a word that is neither a keyword nor a numeral is a literal after a field or a
comparison and a field elsewhere, and every other piece stands for the same token everywhere.

* `ofText_of_written`: the tokens of a text do not depend on its layout;
* `isChain_readAll`: no field follows a field or a comparison, whatever the text.
-/

namespace RecordFilter

/-- The token is a field or a comparison. -/
def Token.Awaits (t : Token) : Prop := (∃ name, t = .field name) ∨ ∃ c, t = .comparison c

theorem Token.awaitsLiteral_iff (t : Token) : t.awaitsLiteral = true ↔ t.Awaits := by
  cases t <;> simp [awaitsLiteral, Awaits]

/-- The token does not put a field after a field or a comparison. -/
def Token.MayFollow (t u : Token) : Prop := t.Awaits → ∀ name, u ≠ .field name

namespace Piece

variable {ignoreCase : Bool} {previous : Option Token}

/-! ## What pieces stand for -/

/-- The piece stands for the token, when the previous token, if any, is the given one. -/
inductive Reads (previous : Option Token) : Piece ignoreCase → Token → Prop
  | symbol {t s known} : Reads previous (.symbol t s known) t
  | keyword {t s known} : Reads previous (.keyword t s known) t
  | quoted {mark content isMark unmarked} :
    Reads previous (.quoted mark content isMark unmarked)
      (.literal (.string (String.ofList content)))
  | wordKeyword {s nonempty isWord t} (keyword : Token.IsKeyword ignoreCase s t) :
    Reads previous (.word s nonempty isWord) t
  | wordNumber {s nonempty isWord v} (keyword : ∀ t, ¬ Token.IsKeyword ignoreCase s t)
    (number : Value.ofNumeral? s = some v) :
    Reads previous (.word s nonempty isWord) (.literal v)
  | wordLiteral {s nonempty isWord} (keyword : ∀ t, ¬ Token.IsKeyword ignoreCase s t)
    (number : Value.ofNumeral? s = none) (awaited : ∃ t ∈ previous, t.Awaits) :
    Reads previous (.word s nonempty isWord) (.literal (.string (String.ofList s)))
  | wordField {s nonempty isWord} (keyword : ∀ t, ¬ Token.IsKeyword ignoreCase s t)
    (number : Value.ofNumeral? s = none) (awaited : ¬ ∃ t ∈ previous, t.Awaits) :
    Reads previous (.word s nonempty isWord) (.field (String.ofList s))

/-- The pieces stand for the tokens, one for one. -/
inductive ReadsAll : Option Token → List (Piece ignoreCase) → List Token → Prop
  | nil {before : Option Token} : ReadsAll before [] []
  | cons {before : Option Token} {p : Piece ignoreCase} {ps t ts} (first : p.Reads before t)
    (rest : ReadsAll (some t) ps ts) : ReadsAll before (p :: ps) (t :: ts)

theorem any_awaitsLiteral_iff (previous : Option Token) :
    previous.any Token.awaitsLiteral = true ↔ ∃ t ∈ previous, t.Awaits := by
  cases previous <;> simp [Token.awaitsLiteral_iff]

theorem keyword?_eq_none_iff {w : List Char} :
    Token.keyword? ignoreCase w = none ↔ ∀ t, ¬ Token.IsKeyword ignoreCase w t := by
  simp only [Option.eq_none_iff_forall_ne_some, ne_eq, Token.keyword?_eq_some_iff]

theorem reads_toToken (p : Piece ignoreCase) :
    p.Reads previous (p.lexeme.toToken ignoreCase (previous.any Token.awaitsLiteral)) := by
  cases p with
  | symbol t s known => exact .symbol
  | quoted mark content isMark unmarked => exact .quoted
  | keyword t s known =>
    rw [lexeme, Lexeme.toToken, Token.keyword?_eq_some_iff.mpr known]
    exact .keyword
  | word s nonempty isWord =>
    rw [lexeme, Lexeme.toToken]
    split
    · next t hk => exact .wordKeyword (Token.keyword?_eq_some_iff.mp hk)
    · next hk =>
      have hk := keyword?_eq_none_iff.mp hk
      split
      · next v hv => exact .wordNumber hk hv
      · next hv =>
        split
        · next haw => exact .wordLiteral hk hv ((any_awaitsLiteral_iff previous).mp haw)
        · next haw => exact .wordField hk hv fun h => haw ((any_awaitsLiteral_iff previous).mpr h)

theorem reads_iff {p : Piece ignoreCase} {t : Token} :
    p.Reads previous t ↔
      t = p.lexeme.toToken ignoreCase (previous.any Token.awaitsLiteral) := by
  refine ⟨fun h => ?_, fun h => h ▸ p.reads_toToken⟩
  cases h with
  | symbol => rfl
  | quoted => rfl
  | @keyword t s known => rw [lexeme, Lexeme.toToken, Token.keyword?_eq_some_iff.mpr known]
  | wordKeyword hk => rw [lexeme, Lexeme.toToken, Token.keyword?_eq_some_iff.mpr hk]
  | wordNumber hk hv => rw [lexeme, Lexeme.toToken, keyword?_eq_none_iff.mpr hk, hv]
  | wordLiteral hk hv haw =>
    rw [lexeme, Lexeme.toToken, keyword?_eq_none_iff.mpr hk, hv,
      (any_awaitsLiteral_iff previous).mpr haw]
    rfl
  | wordField hk hv haw =>
    have haw : previous.any Token.awaitsLiteral = false :=
      Bool.eq_false_iff.mpr fun h => haw ((any_awaitsLiteral_iff previous).mp h)
    rw [lexeme, Lexeme.toToken, keyword?_eq_none_iff.mpr hk, hv, haw]
    rfl

theorem Reads.mayFollow {p : Piece ignoreCase} {t u : Token} (h : p.Reads (some t) u) :
    t.MayFollow u := by
  rintro ht name rfl
  have hkeyword : ∀ s, ¬ Token.IsKeyword ignoreCase s (.field name) := by
    rintro s ⟨_, hword, -⟩
    cases hword
  cases h with
  | @symbol _ _ known => cases known
  | @keyword _ s known => exact hkeyword s known
  | wordKeyword hk => exact hkeyword _ hk
  | wordField hk hv haw => exact haw ⟨t, rfl, ht⟩

/-- The tokens of lexemes, one after the other. -/
def tokensFrom (ignoreCase : Bool) : Bool → List Lexeme → List Token
  | _, [] => []
  | awaitsLiteral, l :: ls =>
    l.toToken ignoreCase awaitsLiteral ::
      tokensFrom ignoreCase (l.toToken ignoreCase awaitsLiteral).awaitsLiteral ls

theorem readsAll_iff {ps : List (Piece ignoreCase)} {ts : List Token} :
    ReadsAll previous ps ts ↔
      ts = tokensFrom ignoreCase (previous.any Token.awaitsLiteral) (ps.map lexeme) := by
  induction ps generalizing previous ts with
  | nil =>
    constructor
    · rintro ⟨⟩
      rfl
    · rintro rfl
      exact .nil
  | cons p ps ih =>
    constructor
    · rintro (- | ⟨hp, hps⟩)
      rw [List.map_cons, tokensFrom, ← reads_iff.mp hp, ih.mp hps]
      rfl
    · rintro rfl
      exact .cons p.reads_toToken (ih.mpr rfl)

/-! ## Gaps -/

/-- Without a gap between them the two pieces would be one, or other pieces. -/
def NeedsGap (p q : Piece ignoreCase) : Prop :=
  (p.isWritten = true ∧ q.isWritten = true) ∨
    (Lexeme.TakesEquals p.text ∧ q.text.head? = some '=')

instance (p q : Piece ignoreCase) : Decidable (p.NeedsGap q) :=
  inferInstanceAs (Decidable (_ ∨ _))

/-- The text is a layout of the pieces: each has a gap in front of it, and there is one at the end.
The previous piece, if any, is the one that the text follows. -/
inductive Written : Option (Piece ignoreCase) → List (Piece ignoreCase) → List Char → Prop
  | nil {before : Option (Piece ignoreCase)} {gap : List Char}
    (blank : Text.isBlankText gap = true) : Written before [] gap
  | cons {before : Option (Piece ignoreCase)} {p : Piece ignoreCase} {ps} {gap text : List Char}
    (blank : Text.isBlankText gap = true) (needed : ∀ q ∈ before, q.NeedsGap p → gap ≠ [])
    (rest : Written (some p) ps text) : Written before (p :: ps) (gap ++ (p.text ++ text))

theorem ended_of_isBlank (p : Piece ignoreCase) {c : Char} (hc : Text.isBlank c = true)
    (text : List Char) : p.Ended (c :: text) where
  word _ d hd := by
    cases hd
    simp [Lexeme.isWordChar, hc]
  symbol _ hd := by
    cases hd
    cases hc

theorem ended_nil (p : Piece ignoreCase) : p.Ended [] := ⟨fun _ _ => nofun, fun _ => nofun⟩

theorem isWritten_of_head? {p : Piece ignoreCase} {c : Char} (h : p.text.head? = some c)
    (hc : Lexeme.isWordChar c = true) : p.isWritten = true := by
  cases p with
  | symbol t s known =>
    have hall : ∀ q ∈ Token.symbols, q.1.head?.any Lexeme.isWordChar = false := by decide
    have hs := hall (s.toList, t) ((Token.mem_symbols_iff _ _).mpr (by rwa [String.ofList_toList]))
    rw [show s.toList.head? = some c from h, Option.any_some, hc] at hs
    cases hs
  | keyword t s known => rfl
  | quoted mark content isMark unmarked =>
    cases h
    exact absurd isMark (Lexeme.not_isMark_of_isWordChar hc)
  | word s nonempty isWord => rfl

theorem head?_text_append (p : Piece ignoreCase) (text : List Char) :
    (p.text ++ text).head? = p.text.head? := by
  rw [List.head?_append_of_ne_nil _ p.text_ne_nil]

theorem exists_head?_of_isWritten {p : Piece ignoreCase} (h : p.isWritten = true) :
    ∃ c, p.text.head? = some c ∧ Lexeme.isWordChar c = true := by
  have hword : p.text ≠ [] ∧ ∀ c ∈ p.text, Lexeme.isWordChar c = true := by
    cases p with
    | symbol t s known => cases h
    | keyword t s known => exact known.word
    | quoted mark content isMark unmarked => cases h
    | word s nonempty isWord => exact ⟨nonempty, isWord⟩
  obtain ⟨c, cs, hp⟩ := List.exists_cons_of_ne_nil hword.1
  rw [hp] at hword ⊢
  exact ⟨c, rfl, hword.2 c List.mem_cons_self⟩

/-- A piece needs a gap after another one just when it extends it. -/
theorem ended_text_iff {p q : Piece ignoreCase} {text : List Char} :
    p.Ended (q.text ++ text) ↔ ¬ p.NeedsGap q := by
  constructor
  · rintro hended (⟨hp, hq⟩ | ⟨hp, hq⟩)
    · obtain ⟨c, hhead, hc⟩ := exists_head?_of_isWritten hq
      rw [hended.word hp c (by rwa [head?_text_append])] at hc
      cases hc
    · exact hended.symbol hp (by rwa [head?_text_append])
  · intro h
    refine ⟨fun hp c hc => ?_, fun hp hc => ?_⟩
    · rw [head?_text_append] at hc
      by_contra hword
      exact h (Or.inl ⟨hp, isWritten_of_head? hc (by simpa using hword)⟩)
    · rw [head?_text_append] at hc
      exact h (Or.inr ⟨hp, hc⟩)

theorem ended_gap (p : Piece ignoreCase) {gap : List Char} (hgap : Text.isBlankText gap = true)
    {text : List Char} (htext : gap = [] → p.Ended text) : p.Ended (gap ++ text) := by
  cases gap with
  | nil => exact htext rfl
  | cons c gap =>
    rw [Text.isBlankText, List.all_cons, Bool.and_eq_true] at hgap
    exact p.ended_of_isBlank hgap.1 _

theorem Written.ended {p : Piece ignoreCase} {ps : List (Piece ignoreCase)} {text : List Char}
    (h : Written (some p) ps text) : p.Ended text := by
  cases h with
  | nil blank =>
    rw [← List.append_nil text]
    exact p.ended_gap blank fun _ => p.ended_nil
  | cons blank needed rest =>
    exact p.ended_gap blank fun hgap =>
      ended_text_iff.mpr fun hneeds => needed p rfl hneeds hgap

/-! ## Reading -/

theorem trimLeft_gap {gap : List Char} (hgap : Text.isBlankText gap = true) (text : List Char) :
    Text.trimLeft (gap ++ text) = Text.trimLeft text :=
  List.dropWhile_append_of_pos (List.all_eq_true.mp hgap)

/-- **The tokens of a layout** are those of its pieces. -/
theorem Written.readAll_eq {before : Option (Piece ignoreCase)} {ps : List (Piece ignoreCase)}
    {text : List Char} (h : Written before ps text) (awaitsLiteral : Bool) :
    Lexeme.readAll ignoreCase awaitsLiteral text =
      (tokensFrom ignoreCase awaitsLiteral (ps.map lexeme), []) := by
  induction h generalizing awaitsLiteral with
  | nil blank => exact Lexeme.readAll_blank ((Text.trimLeft_eq_nil_iff _).mpr blank)
  | @cons before p ps gap text blank needed rest ih =>
    rw [Lexeme.readAll_congr (trimLeft_gap blank _),
      Lexeme.readAll_of_read? (read?_text rest.ended) rfl rfl, ih]
    rfl

end Piece

/-! ## No field after a field -/

namespace Lexeme

theorem toToken_mayFollow {text rest : List Char} {l : Lexeme} (h : read? text = some (l, rest))
    (ignoreCase : Bool) (t : Token) : t.MayFollow (l.toToken ignoreCase t.awaitsLiteral) := by
  obtain ⟨p, rfl, -, -⟩ := Piece.exists_of_read? ignoreCase h
  have hreads : p.Reads (some t) (p.lexeme.toToken ignoreCase t.awaitsLiteral) := p.reads_toToken
  exact hreads.mayFollow

/-- No field follows a field or a comparison in what is read from any text. -/
theorem isChain_readAll (ignoreCase : Bool) (t : Token) (text : List Char) :
    (t :: (readAll ignoreCase t.awaitsLiteral text).1).IsChain Token.MayFollow := by
  generalize haw : t.awaitsLiteral = aw
  fun_induction readAll ignoreCase aw text generalizing t with
  | case1 => exact .singleton t
  | case2 => exact .singleton t
  | case3 aw text c cs ht l rest hr token more ih =>
    subst haw
    exact .cons_cons (toToken_mayFollow hr ignoreCase t) (ih token rfl)

end Lexeme

namespace TokenList

/-- **The tokens of a text do not depend on its layout**: they are those that its pieces stand for,
one for each piece, and no character is stray. -/
theorem ofText_of_written {ignoreCase : Bool} {pieces : List (Piece ignoreCase)}
    {text : List Char} (h : Piece.Written none pieces text) :
    ∃ tokens, ofText text ignoreCase = ⟨tokens ++ [.endOfInput], none⟩ ∧
      (∀ ts, Piece.ReadsAll none pieces ts ↔ ts = tokens) ∧ tokens.IsChain Token.MayFollow := by
  have hread := h.readAll_eq false
  refine ⟨_, ?_, fun ts => Piece.readsAll_iff, ?_⟩
  · rw [ofText_eq, hread]
    rfl
  · have hchain := Lexeme.isChain_readAll ignoreCase .openGroup text
    rw [show Token.openGroup.awaitsLiteral = false from rfl, hread] at hchain
    exact hchain.tail

/-- Pieces of all kinds. -/
def crowded : List (Piece true) :=
  [.word ['a'] (by decide) (List.all_eq_true.mp rfl), .symbol (.comparison .eq) "=" (by decide),
    .symbol (.comparison .eq) "==" (by decide), .quoted '\'' ['"'] (Or.inr rfl) (by decide),
    .keyword (.connective .or) ['O', 'r'] ⟨"or", rfl, by decide⟩,
    .word ['b'] (by decide) (List.all_eq_true.mp rfl)]

/-- Only two gaps are needed: between the equality signs, and between the words. -/
theorem ofText_of_crowded :
    Piece.Written none crowded "a= =='\"'Or\u00A0b".toList ∧
      ∃ tokens, ofText "a= =='\"'Or\u00A0b".toList true = ⟨tokens ++ [.endOfInput], none⟩ ∧
        (∀ ts, Piece.ReadsAll none crowded ts ↔ ts = tokens) ∧ tokens.IsChain Token.MayFollow := by
  have htext : "a= =='\"'Or\u00A0b".toList =
      [] ++ (['a'] ++ ([] ++ (['='] ++ ([' '] ++ (['=', '='] ++ ([] ++ (['\'', '"', '\''] ++
        ([] ++ (['O', 'r'] ++ (['\u00A0'] ++ (['b'] ++ []))))))))))) := rfl
  have h : Piece.Written none crowded "a= =='\"'Or\u00A0b".toList := by
    rw [htext]
    refine .cons rfl (by decide) (.cons rfl (by decide) (.cons rfl (by decide) ?_))
    exact .cons rfl (by decide) (.cons rfl (by decide) (.cons rfl (by decide) (.nil rfl)))
  exact ⟨h, ofText_of_written h⟩

end TokenList

end RecordFilter
