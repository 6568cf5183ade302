import RecordFilter.Token
import RecordFilter.Text.Blank
import RecordFilter.Text.Leading

/-!
# Lexemes

How the text of an expression falls apart. A lexeme is a symbol, a text between two quotes of the
same kind, or a word: the longest run of characters that are neither blank nor part of a symbol or
quote. Quoted text has no escapes, so it holds anything but its own quote.

* `exists_spelling`: a lexeme takes a non-empty part off the front of the text.
-/

namespace RecordFilter

/-- A piece of the text of an expression. -/
inductive Lexeme where
  | symbol (token : Token)
  | quoted (content : List Char)
  | word (spelling : List Char)
  deriving DecidableEq

namespace Lexeme

/-- The character may stand in a word. -/
def isWordChar (c : Char) : Bool :=
  !Text.isBlank c && !"()\"'=!<>&|".toList.contains c

/-- Reads a symbol. -/
def symbol? (text : List Char) : Option (Lexeme × List Char) :=
  Token.symbols.findSome? fun (spelling, token) =>
    (Text.dropPrefix? spelling text).map fun rest => (.symbol token, rest)

/-- Reads a quoted text, which ends at the next mark like its first. -/
def quoted? : List Char → Option (Lexeme × List Char)
  | [] => none
  | mark :: body =>
    if mark = '"' ∨ mark = '\'' then
      match body.dropWhile (· != mark) with
      | [] => none
      | _ :: rest => some (.quoted (body.takeWhile (· != mark)), rest)
    else none

/-- Reads a word. -/
def word? (text : List Char) : Option (Lexeme × List Char) :=
  if (text.takeWhile isWordChar).isEmpty then none
  else some (.word (text.takeWhile isWordChar), text.dropWhile isWordChar)

/-- Reads the lexeme that the text begins with; no lexeme begins with a blank. -/
def read? (text : List Char) : Option (Lexeme × List Char) :=
  ((symbol? text).orElse fun _ => quoted? text).orElse fun _ => word? text

theorem exists_spelling_symbol {text rest : List Char} {l : Lexeme}
    (h : symbol? text = some (l, rest)) : ∃ s, s ≠ [] ∧ text = s ++ rest := by
  obtain ⟨⟨s, t⟩, hmem, hs⟩ := List.exists_of_findSome?_eq_some h
  obtain ⟨r, hr, heq⟩ := Option.map_eq_some_iff.mp hs
  obtain ⟨-, rfl⟩ := Prod.mk.inj heq
  refine ⟨s, ?_, Text.eq_append_of_dropPrefix? hr⟩
  have : ∀ p ∈ Token.symbols, p.1 ≠ [] := by decide
  exact this _ hmem

theorem exists_spelling_quoted {text rest : List Char} {l : Lexeme}
    (h : quoted? text = some (l, rest)) : ∃ s, s ≠ [] ∧ text = s ++ rest := by
  cases text with
  | nil => cases h
  | cons mark body =>
    simp only [quoted?] at h
    split at h
    · split at h
      · cases h
      · next last tail hd =>
        obtain ⟨-, rfl⟩ := Prod.mk.inj (Option.some.inj h)
        refine ⟨mark :: body.takeWhile (· != mark) ++ [last], by simp, ?_⟩
        have := List.takeWhile_append_dropWhile (p := (· != mark)) (l := body)
        rw [hd] at this
        simp [this]
    · cases h

theorem exists_spelling_word {text rest : List Char} {l : Lexeme}
    (h : word? text = some (l, rest)) : ∃ s, s ≠ [] ∧ text = s ++ rest := by
  unfold word? at h
  split at h
  · cases h
  · next hw =>
    obtain ⟨-, rfl⟩ := Prod.mk.inj (Option.some.inj h)
    refine ⟨text.takeWhile isWordChar, ?_, List.takeWhile_append_dropWhile.symm⟩
    simpa using hw

theorem exists_spelling {text rest : List Char} {l : Lexeme}
    (h : read? text = some (l, rest)) : ∃ s, s ≠ [] ∧ text = s ++ rest := by
  unfold read? at h
  cases hs : symbol? text with
  | some p => rw [hs] at h; exact exists_spelling_symbol (hs.trans h)
  | none =>
    rw [hs] at h
    cases hq : quoted? text with
    | some p => rw [hq] at h; exact exists_spelling_quoted (hq.trans h)
    | none => rw [hq] at h; exact exists_spelling_word h

theorem isSuffix_of_read? {text rest : List Char} {l : Lexeme}
    (h : read? text = some (l, rest)) : rest <:+ text := by
  obtain ⟨s, -, rfl⟩ := exists_spelling h
  exact List.suffix_append s rest

/-- The token that a lexeme stands for. A word is a keyword if it can be, else a number if it can
be; any other word is a literal where one is awaited and a field elsewhere. -/
def toToken (ignoreCase awaitsLiteral : Bool) : Lexeme → Token
  | .symbol token => token
  | .quoted content => .literal (.string (String.ofList content))
  | .word spelling =>
    match Token.keyword? ignoreCase spelling with
    | some token => token
    | none =>
      match Value.ofNumeral? spelling with
      | some v => .literal v
      | none =>
        if awaitsLiteral then .literal (.string (String.ofList spelling))
        else .field (String.ofList spelling)

end Lexeme

end RecordFilter
