import Mathlib
import RecordFilter.Proofs.Lexing.Extent

/-!
# Texts one after the other

A text that begins with a character which neither continues a word nor makes a longer symbol is
**detached** from every text before it. The lexemes of a text are then read as they are without what
follows, and reading goes on there in the state in which the last token leaves it.

* `readAll_append`: the tokens of a text with a detached text after it.
-/

namespace RecordFilter

/-- Whether a plain word after the tokens is a literal, if it is one at their beginning or not. -/
def Token.awaitsAfter (awaitsLiteral : Bool) (ts : List Token) : Bool :=
  ts.foldl (fun _ t => t.awaitsLiteral) awaitsLiteral

namespace Lexeme

/-- What is in front extends no lexeme before it. -/
def Detached (text : List Char) : Prop := EndsWord text ∧ text.head? ≠ some '='

theorem detached_space (text : List Char) : Detached (' ' :: text) :=
  ⟨by rintro c ⟨⟩; decide, by simp⟩

theorem detached_closeGroup (text : List Char) : Detached (')' :: text) :=
  ⟨by rintro c ⟨⟩; decide, by simp⟩

variable {ignoreCase awaitsLiteral : Bool} {text rest : List Char}

/-- A piece that ends where its text does is not extended by a detached text. -/
theorem Detached.ended {p : Piece ignoreCase} (hrest : Detached rest) (h : p.Ended text) :
    p.Ended (text ++ rest) := by
  cases text with
  | nil => exact ⟨fun _ => hrest.1, fun _ => hrest.2⟩
  | cons c cs => exact ⟨h.word, h.symbol⟩

/-- **The tokens of a text with a detached text after it** are its own and those of the other. -/
theorem readAll_append (hrest : Detached rest)
    (h : (readAll ignoreCase awaitsLiteral text).2 = []) :
    readAll ignoreCase awaitsLiteral (text ++ rest) =
      prepend (readAll ignoreCase awaitsLiteral text).1
        (readAll ignoreCase
          (Token.awaitsAfter awaitsLiteral (readAll ignoreCase awaitsLiteral text).1) rest) := by
  fun_induction readAll ignoreCase awaitsLiteral text with
  | case1 aw text ht =>
    have hblank := (Text.trimLeft_eq_nil_iff text).mp ht
    exact readAll_congr (Piece.trimLeft_gap hblank rest)
  | case2 aw text c cs ht hr => cases h
  | case3 aw text c cs ht l after hr token more ih =>
    obtain ⟨p, rfl, hsplit, hended⟩ := Piece.exists_of_read? ignoreCase hr
    obtain ⟨gap, hgap, hparts⟩ := Text.exists_gap text
    have htext : text ++ rest = gap ++ (p.text ++ (after ++ rest)) := by
      rw [← hparts, ht, hsplit, List.append_assoc, List.append_assoc]
    rw [htext, readAll_congr (Piece.trimLeft_gap hgap _),
      readAll_of_read? (Piece.read?_text (hrest.ended hended)) rfl rfl, ih h, prepend_prepend]
    rfl

end Lexeme

end RecordFilter
