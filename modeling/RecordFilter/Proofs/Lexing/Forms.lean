import Mathlib
import RecordFilter.Tokenizer

/-!
# The forms of lexemes

What `read?` takes off a text is a symbol, a quoted text or a word, and it takes each of these
whenever the text begins with one that what follows cannot extend.

* `read?_cases`: the three forms;
* `read?_quoted`, `read?_word`: a quoted text is read up to its mark, a word up to the first
  character that no word holds;
* `toToken_ne_endOfInput`: no lexeme stands for the end.
-/

namespace RecordFilter.Lexeme

/-! ## Symbols -/

theorem symbol?_eq_some {text rest : List Char} {l : Lexeme} (h : symbol? text = some (l, rest)) :
    ∃ s t, (s, t) ∈ Token.symbols ∧ l = .symbol t ∧ text = s ++ rest := by
  obtain ⟨⟨s, t⟩, hmem, hs⟩ := List.exists_of_findSome?_eq_some h
  obtain ⟨r, hr, heq⟩ := Option.map_eq_some_iff.mp hs
  obtain ⟨rfl, rfl⟩ := Prod.mk.inj heq
  exact ⟨s, t, hmem, rfl, Text.eq_append_of_dropPrefix? hr⟩

/-- The characters that a symbol can begin with. -/
def beginsSymbol (c : Char) : Bool := "&|=!><()".toList.contains c

theorem symbol?_eq_none {c : Char} (h : beginsSymbol c = false) (text : List Char) :
    symbol? (c :: text) = none := by
  refine List.findSome?_eq_none_iff.mpr fun ⟨s, t⟩ hmem => ?_
  have hfirst : ∀ p ∈ Token.symbols, p.1.head?.any beginsSymbol = true := by decide
  obtain ⟨d, r, rfl, hd⟩ : ∃ d r, s = d :: r ∧ beginsSymbol d = true := by
    cases s with
    | nil => cases hfirst _ hmem
    | cons d r => exact ⟨d, r, rfl, hfirst _ hmem⟩
  refine Option.map_eq_none_iff.mpr (Option.eq_none_iff_forall_ne_some.mpr fun rest hrest => ?_)
  obtain ⟨rfl, -⟩ := List.cons.inj (Text.eq_append_of_dropPrefix? hrest)
  rw [h] at hd
  cases hd

/-! ## Quoted texts -/

/-- The character is a quotation mark. -/
def isMark (c : Char) : Prop := c = '"' ∨ c = '\''

theorem quoted?_eq_some {text rest : List Char} {l : Lexeme} (h : quoted? text = some (l, rest)) :
    ∃ mark content, isMark mark ∧ mark ∉ content ∧ l = .quoted content ∧
      text = mark :: (content ++ mark :: rest) := by
  cases text with
  | nil => cases h
  | cons mark body =>
    simp only [quoted?] at h
    split at h
    · next hmark =>
      split at h
      · cases h
      · next last tail hd =>
        obtain ⟨rfl, rfl⟩ := Prod.mk.inj (Option.some.inj h)
        have hlast : last = mark := by
          have := List.head?_dropWhile_not (· != mark) body
          rw [hd] at this
          simpa using this
        have hsplit := List.takeWhile_append_dropWhile (p := (· != mark)) (l := body)
        rw [hd, hlast] at hsplit
        refine ⟨mark, _, hmark, fun hmem => ?_, rfl, by rw [hsplit]⟩
        have := List.all_eq_true.mp List.all_takeWhile mark hmem
        simp at this
    · cases h

theorem quoted?_eq_none {c : Char} (h : ¬ isMark c) (text : List Char) :
    quoted? (c :: text) = none := if_neg h

/-! ## Words -/

theorem word?_eq_some {text rest : List Char} {l : Lexeme} (h : word? text = some (l, rest)) :
    ∃ w, w ≠ [] ∧ (∀ c ∈ w, isWordChar c = true) ∧ l = .word w ∧ text = w ++ rest := by
  unfold word? at h
  split at h
  · cases h
  · next hw =>
    obtain ⟨rfl, rfl⟩ := Prod.mk.inj (Option.some.inj h)
    exact ⟨_, by simpa using hw, List.all_eq_true.mp List.all_takeWhile, rfl,
      List.takeWhile_append_dropWhile.symm⟩

theorem beginsSymbol_of_isWordChar {c : Char} (h : isWordChar c = true) :
    beginsSymbol c = false := by
  simp only [isWordChar, Bool.and_eq_true, Bool.not_eq_true'] at h
  simp [beginsSymbol] at h ⊢
  simp [h]

theorem not_isMark_of_isWordChar {c : Char} (h : isWordChar c = true) : ¬ isMark c := by
  rintro (rfl | rfl) <;> revert h <;> decide

/-! ## Reading -/

theorem read?_cases {text rest : List Char} {l : Lexeme} (h : read? text = some (l, rest)) :
    symbol? text = some (l, rest) ∨ quoted? text = some (l, rest) ∨
      word? text = some (l, rest) := by
  unfold read? at h
  cases hs : symbol? text with
  | some p =>
    rw [hs] at h
    exact Or.inl h
  | none =>
    rw [hs] at h
    cases hq : quoted? text with
    | some p =>
      rw [hq] at h
      exact Or.inr (Or.inl h)
    | none =>
      rw [hq] at h
      exact Or.inr (Or.inr h)

theorem read?_openGroup (rest : List Char) :
    read? ('(' :: rest) = some (.symbol .openGroup, rest) := rfl

theorem read?_closeGroup (rest : List Char) :
    read? (')' :: rest) = some (.symbol .closeGroup, rest) := rfl

theorem read?_quoted {mark : Char} (hmark : isMark mark) {content : List Char}
    (hcontent : mark ∉ content) (rest : List Char) :
    read? (mark :: (content ++ mark :: rest)) = some (.quoted content, rest) := by
  have hsymbol : beginsSymbol mark = false := by rcases hmark with rfl | rfl <;> decide
  have hall : ∀ c ∈ content, (c != mark) = true := fun c hc => by
    simp only [bne_iff_ne]
    exact fun heq => hcontent (heq ▸ hc)
  have hquoted : quoted? (mark :: (content ++ mark :: rest)) = some (.quoted content, rest) := by
    simp only [quoted?]
    rw [if_pos (show mark = '"' ∨ mark = '\'' from hmark), List.dropWhile_append_of_pos hall,
      List.takeWhile_append_of_pos hall]
    simp
  rw [read?, symbol?_eq_none hsymbol, hquoted]
  rfl

/-- No character of a word is in front. -/
def EndsWord (text : List Char) : Prop := ∀ c, text.head? = some c → isWordChar c = false

theorem read?_word {w : List Char} (hne : w ≠ []) (hw : ∀ c ∈ w, isWordChar c = true)
    {rest : List Char} (hrest : EndsWord rest) : read? (w ++ rest) = some (.word w, rest) := by
  have htake : rest.takeWhile isWordChar = [] := by
    cases rest with
    | nil => rfl
    | cons c cs => simp [hrest c rfl]
  have hdrop : rest.dropWhile isWordChar = rest := by
    cases rest with
    | nil => rfl
    | cons c cs => simp [hrest c rfl]
  have hword : word? (w ++ rest) = some (.word w, rest) := by
    unfold word?
    rw [List.takeWhile_append_of_pos hw, List.dropWhile_append_of_pos hw, htake, hdrop,
      List.append_nil, if_neg (by simpa using hne)]
  obtain ⟨c, cs, rfl⟩ := List.exists_cons_of_ne_nil hne
  have hc := hw c List.mem_cons_self
  rw [List.cons_append] at hword ⊢
  rw [read?, symbol?_eq_none (beginsSymbol_of_isWordChar hc),
    quoted?_eq_none (not_isMark_of_isWordChar hc), hword]
  rfl

theorem toToken_ne_endOfInput {text rest : List Char} {l : Lexeme} (h : read? text = some (l, rest))
    (ignoreCase awaitsLiteral : Bool) : l.toToken ignoreCase awaitsLiteral ≠ .endOfInput := by
  have hsymbols : ∀ p ∈ Token.symbols, p.2 ≠ .endOfInput := by decide
  have hkeywords : ∀ p ∈ Token.keywords, p.2 ≠ .endOfInput := by decide
  rcases read?_cases h with h | h | h
  · obtain ⟨s, t, hmem, rfl, -⟩ := symbol?_eq_some h
    exact hsymbols _ hmem
  · obtain ⟨mark, content, -, -, rfl, -⟩ := quoted?_eq_some h
    simp [toToken]
  · obtain ⟨w, -, -, rfl, -⟩ := word?_eq_some h
    simp only [toToken]
    split
    · next token hk =>
      obtain ⟨l₁, l₂, heq, -⟩ := List.lookup_eq_some_iff.mp hk
      exact hkeywords _ (heq ▸ List.mem_append_right _ List.mem_cons_self)
    · split
      · simp
      · split <;> simp

end RecordFilter.Lexeme
