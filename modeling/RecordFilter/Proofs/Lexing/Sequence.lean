import Mathlib
import RecordFilter.Proofs.Lexing.Forms

/-!
# The tokens of a text, by recursion on the text

`readAll` takes lexeme after lexeme off a text and stops where none begins. It has no state but
whether a plain word is a literal, and what the tokenizer hands out is what it reads, with the end
after it.

* `ofText_eq`: the list of tokens of a text, and its stray character, by `readAll`;
* `endOfInput_not_mem`: the end stands after all other tokens and nowhere else.
-/

namespace RecordFilter

namespace Lexeme

/-- The tokens that the text begins with, and the text at which no lexeme begins. -/
def readAll (ignoreCase awaitsLiteral : Bool) (text : List Char) : List Token × List Char :=
  match _ht : Text.trimLeft text with
  | [] => ([], [])
  | c :: cs =>
    match _hr : read? (c :: cs) with
    | none => ([], c :: cs)
    | some (l, rest) =>
      let token := l.toToken ignoreCase awaitsLiteral
      let more := readAll ignoreCase token.awaitsLiteral rest
      (token :: more.1, more.2)
termination_by text.length
decreasing_by
  obtain ⟨s, hs, hsplit⟩ := exists_spelling _hr
  have hle := (Text.trimLeft_isSuffix text).length_le
  rw [_ht, hsplit, List.length_append] at hle
  have := List.length_pos_iff.mpr hs
  omega

variable {ignoreCase awaitsLiteral : Bool} {text rest : List Char}

theorem readAll_blank (h : Text.trimLeft text = []) :
    readAll ignoreCase awaitsLiteral text = ([], []) := by
  rw [readAll]
  split
  · rfl
  · next ht => rw [h] at ht; cases ht

theorem readAll_stray {c : Char} {cs : List Char} (h : Text.trimLeft text = c :: cs)
    (hr : read? (c :: cs) = none) : readAll ignoreCase awaitsLiteral text = ([], c :: cs) := by
  rw [readAll]
  split
  · next ht => rw [h] at ht; cases ht
  · next ht =>
    obtain ⟨rfl, rfl⟩ := List.cons.inj (h.symm.trans ht)
    split
    · rfl
    · next hr' => rw [hr] at hr'; cases hr'

theorem readAll_lexeme {c : Char} {cs rest : List Char} {l : Lexeme}
    (h : Text.trimLeft text = c :: cs) (hr : read? (c :: cs) = some (l, rest)) :
    readAll ignoreCase awaitsLiteral text =
      (l.toToken ignoreCase awaitsLiteral ::
        (readAll ignoreCase (l.toToken ignoreCase awaitsLiteral).awaitsLiteral rest).1,
        (readAll ignoreCase (l.toToken ignoreCase awaitsLiteral).awaitsLiteral rest).2) := by
  rw [readAll]
  split
  · next ht => rw [h] at ht; cases ht
  · next ht =>
    obtain ⟨rfl, rfl⟩ := List.cons.inj (h.symm.trans ht)
    split
    · next hr' => rw [hr] at hr'; cases hr'
    · next hr' =>
      obtain ⟨rfl, rfl⟩ := Prod.mk.inj (Option.some.inj (hr.symm.trans hr'))
      rfl

/-- Tokens in front of what is read. -/
def prepend (ts : List Token) (read : List Token × List Char) : List Token × List Char :=
  (ts ++ read.1, read.2)

theorem prepend_prepend (ts us : List Token) (read : List Token × List Char) :
    prepend ts (prepend us read) = prepend (ts ++ us) read := by
  simp [prepend]

theorem readAll_congr {text' : List Char} (h : Text.trimLeft text = Text.trimLeft text') :
    readAll ignoreCase awaitsLiteral text = readAll ignoreCase awaitsLiteral text' := by
  cases ht : Text.trimLeft text' with
  | nil => rw [readAll_blank ht, readAll_blank (h.trans ht)]
  | cons c cs =>
    cases hr : read? (c :: cs) with
    | none => rw [readAll_stray ht hr, readAll_stray (h.trans ht) hr]
    | some found => rw [readAll_lexeme ht hr, readAll_lexeme (h.trans ht) hr]

theorem not_isBlank_of_read? {c : Char} {cs : List Char} {l : Lexeme}
    (h : read? (c :: cs) = some (l, rest)) : Text.isBlank c = false := by
  rcases read?_cases h with h | h | h
  · obtain ⟨s, t, hmem, -, heq⟩ := symbol?_eq_some h
    have hsymbols : ∀ p ∈ Token.symbols, p.1.head?.any (fun c => !Text.isBlank c) = true := by
      decide
    have hs := hsymbols _ hmem
    cases s with
    | nil => cases hs
    | cons d ds =>
      rw [(List.cons.inj heq).1]
      simpa using hs
  · obtain ⟨mark, content, hmark, -, -, heq⟩ := quoted?_eq_some h
    rw [(List.cons.inj heq).1]
    rcases hmark with rfl | rfl <;> decide
  · obtain ⟨w, hne, hw, -, heq⟩ := word?_eq_some h
    obtain ⟨d, ds, rfl⟩ := List.exists_cons_of_ne_nil hne
    have hd := hw d List.mem_cons_self
    rw [(List.cons.inj heq).1]
    simp only [isWordChar, Bool.and_eq_true, Bool.not_eq_true'] at hd
    exact hd.1

theorem readAll_of_read? {l : Lexeme} {t : Token} {after : Bool} (h : read? text = some (l, rest))
    (ht : l.toToken ignoreCase awaitsLiteral = t) (hafter : t.awaitsLiteral = after) :
    readAll ignoreCase awaitsLiteral text = prepend [t] (readAll ignoreCase after rest) := by
  cases text with
  | nil => cases h
  | cons c cs =>
    have htrim : Text.trimLeft (c :: cs) = c :: cs := by
      rw [Text.trimLeft, List.dropWhile_cons, not_isBlank_of_read? h]
      rfl
    rw [readAll_lexeme htrim h, ht, hafter]
    rfl

/-- What holds of the token of every lexeme that is read holds of all tokens. -/
theorem forall_mem_readAll {P : Token → Prop}
    (hP : ∀ (aw : Bool) (text rest : List Char) (l : Lexeme), read? text = some (l, rest) →
      P (l.toToken ignoreCase aw)) :
    ∀ (awaitsLiteral : Bool) (text : List Char),
      ∀ t ∈ (readAll ignoreCase awaitsLiteral text).1, P t := by
  intro awaitsLiteral text
  fun_induction readAll ignoreCase awaitsLiteral text with
  | case1 => simp
  | case2 => simp
  | case3 aw text c cs ht l rest hr token more ih =>
    exact List.forall_mem_cons.mpr ⟨hP aw _ rest l hr, ih⟩

theorem endOfInput_not_mem_readAll (ignoreCase awaitsLiteral : Bool) (text : List Char) :
    .endOfInput ∉ (readAll ignoreCase awaitsLiteral text).1 := by
  intro hmem
  exact forall_mem_readAll (P := (· ≠ .endOfInput))
    (fun _ _ _ _ hr => toToken_ne_endOfInput hr _ _) _ _ _ hmem rfl

end Lexeme

/-- The stray character at which the rest of a text begins. -/
def StrayChar.at (text rest : List Char) : Option StrayChar :=
  rest.head?.map fun c => ⟨Text.byteLength text - Text.byteLength rest, c⟩

namespace Tokenizer

variable {source : List Char} {ignoreCase awaitsLiteral : Bool} {text : List Char}

theorem next_blank (h : Text.trimLeft text = []) :
    next ⟨source, ignoreCase, text, awaitsLiteral, none, false⟩ =
      (some .endOfInput, ⟨source, ignoreCase, [], awaitsLiteral, none, true⟩) := by
  simp [next, nextToken, h, atEnd]

theorem next_stray {c : Char} {cs : List Char} (h : Text.trimLeft text = c :: cs)
    (hr : Lexeme.read? (c :: cs) = none) :
    next ⟨source, ignoreCase, text, awaitsLiteral, none, false⟩ =
      (some .endOfInput,
        ⟨source, ignoreCase, [], awaitsLiteral, StrayChar.at source (c :: cs), true⟩) := by
  simp [next, nextToken, h, hr, stoppedAt, atEnd, StrayChar.at]

theorem next_lexeme {c : Char} {cs rest : List Char} {l : Lexeme}
    (h : Text.trimLeft text = c :: cs) (hr : Lexeme.read? (c :: cs) = some (l, rest)) :
    next ⟨source, ignoreCase, text, awaitsLiteral, none, false⟩ =
      (some (l.toToken ignoreCase awaitsLiteral),
        ⟨source, ignoreCase, rest, (l.toToken ignoreCase awaitsLiteral).awaitsLiteral, none,
          false⟩) := by
  have hne := Lexeme.toToken_ne_endOfInput hr ignoreCase awaitsLiteral
  simp [next, nextToken, h, hr, after, hne]

theorem take_finished {t : Tokenizer} (h : t.finished = true) (taken : List Token) :
    ∀ bound, take bound taken t = (taken.reverse, t)
  | 0 => rfl
  | bound + 1 => by simp [take, next, h]

/-- What is handed out from a place in the text on, and the stray character found. -/
theorem take_eq (source : List Char) (ignoreCase awaitsLiteral : Bool) (text : List Char) :
    ∀ (bound : Nat) (taken : List Token), text.length < bound →
      (take bound taken ⟨source, ignoreCase, text, awaitsLiteral, none, false⟩).1 =
        taken.reverse ++ ((Lexeme.readAll ignoreCase awaitsLiteral text).1 ++ [.endOfInput]) ∧
      (take bound taken ⟨source, ignoreCase, text, awaitsLiteral, none, false⟩).2.stray =
        StrayChar.at source (Lexeme.readAll ignoreCase awaitsLiteral text).2 := by
  fun_induction Lexeme.readAll ignoreCase awaitsLiteral text with
  | case1 aw text ht =>
    rintro (- | bound) taken hb
    · omega
    · rw [take, next_blank ht]
      simp [take_finished, StrayChar.at]
  | case2 aw text c cs ht hr =>
    rintro (- | bound) taken hb
    · omega
    · rw [take, next_stray ht hr]
      simp [take_finished]
  | case3 aw text c cs ht l rest hr token more ih =>
    rintro (- | bound) taken hb
    · omega
    · obtain ⟨s, hs, hsplit⟩ := Lexeme.exists_spelling hr
      have hle := (Text.trimLeft_isSuffix text).length_le
      rw [ht, hsplit, List.length_append] at hle
      have hpos := List.length_pos_iff.mpr hs
      rw [take, next_lexeme ht hr]
      obtain ⟨htokens, hstray⟩ := ih bound (token :: taken) (by omega)
      refine ⟨htokens.trans ?_, hstray⟩
      simp [token, more]

end Tokenizer

namespace TokenList

/-- **The tokens of a text**, and where reading stopped. -/
theorem ofText_eq (text : List Char) (ignoreCase : Bool) :
    ofText text ignoreCase =
      ⟨(Lexeme.readAll ignoreCase false text).1 ++ [.endOfInput],
        StrayChar.at text (Lexeme.readAll ignoreCase false text).2⟩ := by
  obtain ⟨htokens, hstray⟩ :=
    Tokenizer.take_eq text ignoreCase false text (text.length + 1) [] (Nat.lt_succ_self _)
  exact congr (congrArg TokenList.mk htokens) hstray

theorem endOfInput_not_mem {text : List Char} {ignoreCase : Bool} {tokens : List Token}
    (h : (ofText text ignoreCase).tokens = tokens ++ [.endOfInput]) : .endOfInput ∉ tokens := by
  rw [ofText_eq] at h
  rw [← List.append_cancel_right h]
  exact Lexeme.endOfInput_not_mem_readAll ignoreCase false text

end TokenList

end RecordFilter
