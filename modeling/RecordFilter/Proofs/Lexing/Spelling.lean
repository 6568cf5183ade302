import Mathlib
import RecordFilter.Proofs.Lexing.Forms

/-!
# How lexemes are written

A **piece** is a lexeme as it stands in a text. It is a symbol, a connective or comparison written
as a word, a text between two quotation marks of a kind that it does not hold, or any other word. A
piece is read as the lexeme that it is whenever what follows cannot **extend** it: a word could go
on with a letter, and each of `=`, `>` and `<` with an equals sign.

* `keyword?_eq_some_iff`: the keywords, by the names of their tokens;
* `Piece.read?_text`: a piece that is not extended is read as its lexeme;
* `Piece.exists_of_read?`: every lexeme that is read is a piece that is not extended.
-/

namespace RecordFilter

namespace Token

/-! ## Spellings of tokens -/

/-- The symbols for the token. -/
def symbolsFor : Token → List String
  | .connective .and => ["&&"]
  | .connective .or => ["||"]
  | .comparison .eq => ["==", "="]
  | .comparison .neq => ["!="]
  | .comparison .gt => [">"]
  | .comparison .lt => ["<"]
  | .comparison .geq => [">="]
  | .comparison .leq => ["<="]
  | .openGroup => ["("]
  | .closeGroup => [")"]
  | .field _ | .literal _ | .endOfInput => []

/-- The word for the token, in lower case. -/
def wordFor? : Token → Option String
  | .connective c => some c.name
  | .comparison c => some c.name
  | _ => none

/-- The spelling is the word for the token; each of its letters may be in upper case if case is
ignored. -/
def IsKeyword (ignoreCase : Bool) (spelling : List Char) (t : Token) : Prop :=
  ∃ name, t.wordFor? = some name ∧
    List.Forall₂ (fun c d => c = d ∨ ignoreCase = true ∧ c = d.toUpper) spelling name.toList

theorem mem_symbols_iff (s : List Char) (t : Token) :
    (s, t) ∈ symbols ↔ String.ofList s ∈ t.symbolsFor := by
  constructor
  · have hall : ∀ p ∈ symbols, String.ofList p.1 ∈ p.2.symbolsFor := by decide
    exact hall (s, t)
  · intro h
    rw [← String.toList_ofList (l := s)]
    generalize String.ofList s = spelling at h
    revert spelling
    cases t with
    | connective c => cases c <;> decide
    | comparison c => cases c <;> decide
    | openGroup => decide
    | closeGroup => decide
    | field name => exact fun _ h => nomatch h
    | literal v => exact fun _ h => nomatch h
    | endOfInput => exact fun _ h => nomatch h

/-! ## Keywords -/

/-- What holds of the capitals, and of every character that is its own lower case, holds of all
characters. -/
theorem forall_of_capitals (P : Char → Prop) (hcapital : ∀ n < 91, 65 ≤ n → P (Char.ofNat n))
    (hlower : ∀ c : Char, c = c.toLower → P c) (c : Char) : P c := by
  by_cases hc : 65 ≤ c.toNat ∧ c.toNat ≤ 90
  · have hnat := hcapital c.toNat (Nat.lt_succ_of_le hc.2) hc.1
    rwa [Char.ofNat_toNat] at hnat
  · refine hlower c ?_
    rw [Char.toLower, dif_neg]
    exact fun h => hc ⟨h.1, h.2⟩

theorem eq_toLower_or_eq_toUpper (c : Char) : c = c.toLower ∨ c = c.toLower.toUpper :=
  forall_of_capitals (fun c => c = c.toLower ∨ c = c.toLower.toUpper) (by decide)
    (fun _ => Or.inl) c

theorem wordFor?_of_mem_keywords {w : List Char} {t : Token} (h : (w, t) ∈ keywords) :
    ∃ name, t.wordFor? = some name ∧ name.toList = w := by
  have hall : ∀ p ∈ keywords, p.2.wordFor?.map String.toList = some p.1 := by decide
  exact Option.map_eq_some_iff.mp (hall _ h)

theorem lookup_keywords {t : Token} {name : String} (h : t.wordFor? = some name) :
    keywords.lookup name.toList = some t := by
  cases t with
  | connective c =>
    cases h
    cases c <;> rfl
  | comparison c =>
    cases h
    cases c <;> rfl
  | _ => cases h

/-- The character is a letter in lower case, and a word may hold it in either case. -/
def isSmallLetter (d : Char) : Bool :=
  d.toLower == d && d.toUpper.toLower == d && Lexeme.isWordChar d && Lexeme.isWordChar d.toUpper

theorem isSmallLetter_of_wordFor? {t : Token} {name : String} (h : t.wordFor? = some name) :
    name.toList.all isSmallLetter = true := by
  cases t with
  | connective c =>
    cases h
    cases c <;> rfl
  | comparison c =>
    cases h
    cases c <;> rfl
  | _ => cases h

theorem forall_isSmallLetter {ignoreCase : Bool} {w name : List Char}
    (hname : name.all isSmallLetter = true)
    (h : List.Forall₂ (fun c d => c = d ∨ ignoreCase = true ∧ c = d.toUpper) w name) :
    w.map Char.toLower = name ∧ ∀ c ∈ w, Lexeme.isWordChar c = true := by
  induction h with
  | nil => exact ⟨rfl, fun c hc => nomatch hc⟩
  | @cons c d w name hcd _ ih =>
    simp only [List.all_cons, Bool.and_eq_true, isSmallLetter, beq_iff_eq] at hname
    obtain ⟨⟨⟨⟨hlower, hupper⟩, hd⟩, hD⟩, hrest⟩ := hname
    obtain ⟨hmap, hword⟩ := ih hrest
    rw [List.map_cons, hmap, List.forall_mem_cons]
    rcases hcd with rfl | ⟨-, rfl⟩
    · exact ⟨by rw [hlower], hd, hword⟩
    · exact ⟨by rw [hupper], hD, hword⟩

/-- A word is a keyword for a token when it is its name, up to case if that is ignored. -/
theorem keyword?_eq_some_iff {ignoreCase : Bool} {w : List Char} {t : Token} :
    keyword? ignoreCase w = some t ↔ IsKeyword ignoreCase w t := by
  constructor
  · intro h
    obtain ⟨before, after, hsplit, -⟩ := List.lookup_eq_some_iff.mp h
    obtain ⟨name, hname, hspelling⟩ := wordFor?_of_mem_keywords
      (hsplit ▸ List.mem_append_right before List.mem_cons_self)
    refine ⟨name, hname, ?_⟩
    rw [hspelling]
    cases ignoreCase with
    | false => exact List.forall₂_same.mpr fun c _ => Or.inl rfl
    | true =>
      refine List.forall₂_map_right_iff.mpr (List.forall₂_same.mpr fun c _ => ?_)
      exact (eq_toLower_or_eq_toUpper c).imp_right fun hc => ⟨rfl, hc⟩
  · rintro ⟨name, hname, hspelling⟩
    have hkey : (if ignoreCase then w.map Char.toLower else w) = name.toList := by
      cases ignoreCase with
      | false =>
        refine List.forall₂_eq_eq_eq ▸ hspelling.imp fun c d h => ?_
        exact h.resolve_right fun h => nomatch h.1
      | true => exact (forall_isSmallLetter (isSmallLetter_of_wordFor? hname) hspelling).1
    rw [keyword?, hkey, lookup_keywords hname]

theorem IsKeyword.word {ignoreCase : Bool} {w : List Char} {t : Token}
    (h : IsKeyword ignoreCase w t) : w ≠ [] ∧ ∀ c ∈ w, Lexeme.isWordChar c = true := by
  obtain ⟨name, hname, hspelling⟩ := h
  refine ⟨?_, (forall_isSmallLetter (isSmallLetter_of_wordFor? hname) hspelling).2⟩
  rintro rfl
  have hempty : name.toList = [] := List.forall₂_nil_left_iff.mp hspelling
  have hlookup := lookup_keywords hname
  rw [hempty] at hlookup
  cases hlookup

end Token

/-! ## Symbols -/

namespace Lexeme

/-- An equals sign would make another symbol of this one. -/
def TakesEquals (s : List Char) : Prop := s = ['='] ∨ s = ['>'] ∨ s = ['<']

instance (s : List Char) : Decidable (TakesEquals s) := inferInstanceAs (Decidable (_ ∨ _ ∨ _))

/-- A symbol is read unless the text goes on with a longer one. -/
theorem symbol?_append {s rest : List Char} {t : Token} (h : (s, t) ∈ Token.symbols)
    (hrest : TakesEquals s → rest.head? ≠ some '=') :
    symbol? (s ++ rest) = some (.symbol t, rest) := by
  have hcases : TakesEquals s → rest = [] ∨ ∃ d ds, rest = d :: ds ∧ '=' ≠ d := fun hs => by
    cases rest with
    | nil => exact Or.inl rfl
    | cons d ds => exact Or.inr ⟨d, ds, rfl, fun hd => hrest hs (hd ▸ rfl)⟩
  simp only [Token.symbols, List.mem_cons, Prod.mk.injEq, List.not_mem_nil, or_false] at h
  rcases h with ⟨rfl, rfl⟩ | ⟨rfl, rfl⟩ | ⟨rfl, rfl⟩ | ⟨rfl, rfl⟩ | ⟨rfl, rfl⟩ | ⟨rfl, rfl⟩ |
    ⟨rfl, rfl⟩ | ⟨rfl, rfl⟩ | ⟨rfl, rfl⟩ | ⟨rfl, rfl⟩ | ⟨rfl, rfl⟩
  -- The longer symbols and the parentheses are tried as they stand.
  iterate 6 rfl
  -- `=`, `>` and `<` are tried after the symbols that they begin.
  iterate 3
    rcases hcases (by decide) with rfl | ⟨d, ds, rfl, hd⟩
    · rfl
    · simp [symbol?, Token.symbols, Text.dropPrefix?, hd]
  iterate 2 rfl

theorem head?_ne_of_symbol? {s rest : List Char} {l : Lexeme} (hs : TakesEquals s)
    (h : symbol? (s ++ rest) = some (l, rest)) : rest.head? ≠ some '=' := by
  intro hhead
  obtain ⟨ds, rfl⟩ := List.head?_eq_some_iff.mp hhead
  obtain ⟨l', hlonger⟩ : ∃ l', symbol? (s ++ '=' :: ds) = some (l', ds) := by
    rcases hs with rfl | rfl | rfl <;> exact ⟨_, rfl⟩
  have heq := congrArg (fun found => found.map fun p => p.2.length) (h.symm.trans hlonger)
  simp at heq

theorem endsWord_of_word? {w rest : List Char} (hw : ∀ c ∈ w, isWordChar c = true) {l : Lexeme}
    (h : word? (w ++ rest) = some (l, rest)) : EndsWord rest := by
  intro c hc
  obtain ⟨cs, rfl⟩ := List.head?_eq_some_iff.mp hc
  by_contra hword
  have hdrop : (w ++ c :: cs).dropWhile isWordChar = cs.dropWhile isWordChar := by
    rw [List.dropWhile_append_of_pos hw, List.dropWhile_cons_of_pos (by simpa using hword)]
  unfold word? at h
  split at h
  · cases h
  · have hrest := (Prod.mk.inj (Option.some.inj h)).2
    have hle := (List.dropWhile_suffix isWordChar (l := cs)).length_le
    rw [← hdrop, hrest, List.length_cons] at hle
    omega

end Lexeme

/-! ## Pieces -/

/-- A lexeme as it stands in a text. -/
inductive Piece (ignoreCase : Bool) where
  /-- An operator or a parenthesis, written as a symbol. -/
  | symbol (token : Token) (spelling : String) (known : spelling ∈ token.symbolsFor)
  /-- A connective or comparison, written as a word. -/
  | keyword (token : Token) (spelling : List Char)
      (known : Token.IsKeyword ignoreCase spelling token)
  /-- A text between two quotation marks. -/
  | quoted (mark : Char) (content : List Char) (isMark : Lexeme.isMark mark)
      (unmarked : mark ∉ content)
  /-- A word, which may turn out to be a keyword or a numeral. -/
  | word (spelling : List Char) (nonempty : spelling ≠ [])
      (isWord : ∀ c ∈ spelling, Lexeme.isWordChar c = true)

namespace Piece

variable {ignoreCase : Bool}

/-- The piece as it is written. -/
def text : Piece ignoreCase → List Char
  | .symbol _ spelling _ => spelling.toList
  | .keyword _ spelling _ => spelling
  | .quoted mark content _ _ => mark :: (content ++ [mark])
  | .word spelling _ _ => spelling

/-- The piece is written as a word. -/
def isWritten : Piece ignoreCase → Bool
  | .keyword _ _ _ | .word _ _ _ => true
  | .symbol _ _ _ | .quoted _ _ _ _ => false

/-- The lexeme that the piece is. -/
def lexeme : Piece ignoreCase → Lexeme
  | .symbol token _ _ => .symbol token
  | .keyword _ spelling _ => .word spelling
  | .quoted _ content _ _ => .quoted content
  | .word spelling _ _ => .word spelling

/-- What follows the piece does not extend it. -/
structure Ended (p : Piece ignoreCase) (following : List Char) : Prop where
  word : p.isWritten = true → Lexeme.EndsWord following
  symbol : Lexeme.TakesEquals p.text → following.head? ≠ some '='

theorem text_ne_nil (p : Piece ignoreCase) : p.text ≠ [] := by
  cases p with
  | symbol t s known =>
    have hall : ∀ p ∈ Token.symbols, p.1 ≠ [] := by decide
    exact hall (s.toList, t) ((Token.mem_symbols_iff _ _).mpr (by rwa [String.ofList_toList]))
  | keyword t s known => exact known.word.1
  | quoted mark content isMark unmarked => exact List.cons_ne_nil _ _
  | word s nonempty isWord => exact nonempty

/-- **A piece that is not extended is read** as the lexeme that it is. -/
theorem read?_text {p : Piece ignoreCase} {rest : List Char} (h : p.Ended rest) :
    Lexeme.read? (p.text ++ rest) = some (p.lexeme, rest) := by
  cases p with
  | symbol t s known =>
    have hmem : (s.toList, t) ∈ Token.symbols :=
      (Token.mem_symbols_iff _ _).mpr (by rwa [String.ofList_toList])
    rw [Lexeme.read?, text, Lexeme.symbol?_append hmem h.symbol]
    rfl
  | keyword t s known => exact Lexeme.read?_word known.word.1 known.word.2 (h.word rfl)
  | quoted mark content isMark unmarked =>
    rw [text, List.cons_append, List.append_assoc]
    exact Lexeme.read?_quoted isMark unmarked rest
  | word s nonempty isWord => exact Lexeme.read?_word nonempty isWord (h.word rfl)

/-- **Every lexeme that is read is a piece** that is not extended. -/
theorem exists_of_read? (ignoreCase : Bool) {text rest : List Char} {l : Lexeme}
    (h : Lexeme.read? text = some (l, rest)) :
    ∃ p : Piece ignoreCase, p.lexeme = l ∧ text = p.text ++ rest ∧ p.Ended rest := by
  rcases Lexeme.read?_cases h with h | h | h
  · obtain ⟨s, t, hmem, rfl, rfl⟩ := Lexeme.symbol?_eq_some h
    have hknown : String.ofList s ∈ t.symbolsFor := (Token.mem_symbols_iff s t).mp hmem
    have htext : (symbol t (String.ofList s) hknown : Piece ignoreCase).text = s :=
      String.toList_ofList
    refine ⟨.symbol t (String.ofList s) hknown, rfl, by rw [htext], ⟨nofun, ?_⟩⟩
    rw [htext]
    exact fun hs => Lexeme.head?_ne_of_symbol? hs h
  · obtain ⟨mark, content, hmark, hcontent, rfl, rfl⟩ := Lexeme.quoted?_eq_some h
    refine ⟨.quoted mark content hmark hcontent, rfl, by simp [Piece.text], ⟨nofun, fun hs => ?_⟩⟩
    simp [Lexeme.TakesEquals, Piece.text] at hs
  · obtain ⟨w, hne, hw, rfl, rfl⟩ := Lexeme.word?_eq_some h
    refine ⟨.word w hne hw, rfl, rfl, ⟨fun _ => Lexeme.endsWord_of_word? hw h, fun hs => ?_⟩⟩
    rcases hs with hs | hs | hs <;> exact absurd (hw _ (hs ▸ List.mem_singleton_self _)) (by decide)

end Piece

end RecordFilter
