import Mathlib
import RecordFilter.Condition.Parser
import RecordFilter.Proofs.Lexing.Extent

/-!
# Keywords in any case

A text whose keywords may be in any case is read as the text in which they have been put in lower
case is read strictly. Only words outside quotation marks are changed, and only those whose lower
case is a keyword. The changed text falls apart at the same places: a capital and its small letter
may both stand in words, and take one byte each.

* `forall_alike_lowerKeywords`: what a text and the changed text have in common;
* `read?_lowered`: a lexeme, before and after the change;
* `readAll_lowerKeywords`: all lexemes, and the text at which none begins;
* `parse_lowerKeywords`: the tokens, the stray character and the condition of a text.
-/

namespace RecordFilter

namespace Text

theorem trimLeft_of_isBlank {c : Char} (hc : isBlank c = true) (cs : List Char) :
    trimLeft (c :: cs) = trimLeft cs := List.dropWhile_cons_of_pos hc

theorem trimLeft_of_not_isBlank {c : Char} (hc : isBlank c = false) (cs : List Char) :
    trimLeft (c :: cs) = c :: cs :=
  List.dropWhile_cons_of_neg (by rw [hc]; exact Bool.false_ne_true)

end Text

namespace Lexeme

/-! ## Characters that can stand for each other -/

/-- The characters are the same, or letters of words that take the same number of bytes. -/
def Alike (c d : Char) : Prop :=
  c = d ∨ isWordChar c = true ∧ isWordChar d = true ∧ c.utf8Size = d.utf8Size

theorem alike_refl (c : Char) : Alike c c := Or.inl rfl

theorem alike_toLower (c : Char) : Alike c c.toLower := by
  have hcapital : ∀ n < 91, 65 ≤ n → isWordChar (Char.ofNat n) = true ∧
      isWordChar (Char.ofNat n).toLower = true ∧
      (Char.ofNat n).utf8Size = (Char.ofNat n).toLower.utf8Size := by
    decide
  exact Token.forall_of_capitals (fun c => Alike c c.toLower)
    (fun n hn hcap => Or.inr (hcapital n hn hcap)) (fun _ => Or.inl) c

theorem Alike.utf8Size_eq {c d : Char} (h : Alike c d) : c.utf8Size = d.utf8Size := by
  rcases h with rfl | ⟨-, -, h⟩
  · rfl
  · exact h

theorem Alike.isWordChar_eq {c d : Char} (h : Alike c d) : isWordChar c = isWordChar d := by
  rcases h with rfl | ⟨hc, hd, -⟩
  · rfl
  · rw [hc, hd]

theorem Alike.eq {c d : Char} (h : Alike c d) (hd : isWordChar d = false) : c = d := by
  rcases h with h | ⟨-, hword, -⟩
  · exact h
  · rw [hd] at hword
    cases hword

section Texts

variable {text changed : List Char}

theorem forall_alike_refl (text : List Char) : List.Forall₂ Alike text text :=
  List.forall₂_same.mpr fun c _ => alike_refl c

theorem byteLength_eq_of_alike (h : List.Forall₂ Alike text changed) :
    Text.byteLength text = Text.byteLength changed := by
  induction h with
  | nil => rfl
  | cons hcd _ ih => rw [Text.byteLength_cons, Text.byteLength_cons, ih, hcd.utf8Size_eq]

theorem head?_of_alike (h : List.Forall₂ Alike text changed) {m : Char}
    (hm : isWordChar m = false) (hhead : changed.head? = some m) : text.head? = some m := by
  cases h with
  | nil => cases hhead
  | cons hcd _ =>
    obtain rfl := Option.some.inj hhead
    rw [List.head?_cons, hcd.eq hm]

theorem mem_of_alike (h : List.Forall₂ Alike text changed) {m : Char}
    (hm : isWordChar m = false) (hmem : m ∈ changed) : m ∈ text := by
  induction h with
  | nil => exact hmem
  | cons hcd _ ih =>
    rcases List.mem_cons.mp hmem with rfl | hmem
    · rw [hcd.eq hm]
      exact List.mem_cons_self
    · exact List.mem_cons_of_mem _ (ih hmem)

theorem EndsWord.of_alike (hends : EndsWord text) (h : List.Forall₂ Alike text changed) :
    EndsWord changed := by
  intro d hd
  cases h with
  | nil => cases hd
  | cons hcd _ =>
    obtain rfl := Option.some.inj hd
    rw [← hcd.isWordChar_eq]
    exact hends _ rfl

theorem forall_isWordChar_of_alike (h : List.Forall₂ Alike text changed)
    (htext : ∀ c ∈ text, isWordChar c = true) : ∀ d ∈ changed, isWordChar d = true := by
  induction h with
  | nil => exact htext
  | cons hcd _ ih =>
    rw [List.forall_mem_cons] at htext ⊢
    exact ⟨hcd.isWordChar_eq ▸ htext.1, ih htext.2⟩

theorem BeginsNothing.of_alike {c : Char} (hc : BeginsNothing c text)
    (h : List.Forall₂ Alike text changed) : BeginsNothing c changed := by
  rcases hc with ⟨hc, hhead⟩ | ⟨hc, hhead⟩ | ⟨hc, hhead⟩ | ⟨hc, hmem⟩
  · exact Or.inl ⟨hc, fun hd => hhead (head?_of_alike h (by decide) hd)⟩
  · exact Or.inr (Or.inl ⟨hc, fun hd => hhead (head?_of_alike h (by decide) hd)⟩)
  · exact Or.inr (Or.inr (Or.inl ⟨hc, fun hd => hhead (head?_of_alike h (by decide) hd)⟩))
  · refine Or.inr (Or.inr (Or.inr ⟨hc, fun hd => hmem (mem_of_alike h ?_ hd)⟩))
    rcases hc with rfl | rfl <;> decide

end Texts

end Lexeme

/-- What follows a piece does not begin to extend it. -/
theorem Piece.Ended.of_alike {ignoreCase : Bool} {p : Piece ignoreCase} {text changed : List Char}
    (hended : p.Ended text) (h : List.Forall₂ Lexeme.Alike text changed) : p.Ended changed where
  word hp := (hended.word hp).of_alike h
  symbol hp hhead := hended.symbol hp (Lexeme.head?_of_alike h (by decide) hhead)

namespace Lexeme

/-! ## Keywords in lower case -/

/-- The words for connectives and comparisons. -/
def keywordNames : List String := ["and", "or", "eq", "neq", "gt", "lt", "geq", "leq"]

/-- The word, in lower case if that is a keyword. -/
def lowerWord (w : List Char) : List Char :=
  if String.ofList (w.map Char.toLower) ∈ keywordNames then w.map Char.toLower else w

/-- The lexeme, with a keyword in lower case. -/
def lowered : Lexeme → Lexeme
  | .word w => .word (lowerWord w)
  | l => l

/-- What a lexeme takes of the text, with a keyword in lower case. -/
def loweredPart : Lexeme → List Char → List Char
  | .word _, part => lowerWord part
  | _, part => part

/-- The text with the keywords among its lexemes in lower case. A character that begins no lexeme
ends the search, unless what is `beyond` is to be searched too. -/
def lowerKeywords (beyond : Bool) : List Char → List Char
  | [] => []
  | c :: cs =>
    match _hr : read? (c :: cs) with
    | some (l, rest) =>
      l.loweredPart ((c :: cs).take ((c :: cs).length - rest.length)) ++ lowerKeywords beyond rest
    | none => if Text.isBlank c || beyond then c :: lowerKeywords beyond cs else c :: cs
termination_by text => text.length
decreasing_by
  · obtain ⟨s, hs, hsplit⟩ := exists_spelling _hr
    have hlength := congrArg List.length hsplit
    rw [List.length_append] at hlength
    have := List.length_pos_iff.mpr hs
    omega
  · exact Nat.lt_succ_self _

theorem alike_lowerWord (w : List Char) : List.Forall₂ Alike w (lowerWord w) := by
  unfold lowerWord
  split
  · exact List.forall₂_map_right_iff.mpr (List.forall₂_same.mpr fun c _ => alike_toLower c)
  · exact forall_alike_refl w

theorem alike_loweredPart (l : Lexeme) (part : List Char) :
    List.Forall₂ Alike part (l.loweredPart part) := by
  cases l with
  | word w => exact alike_lowerWord part
  | symbol t => exact forall_alike_refl part
  | quoted content => exact forall_alike_refl part

theorem forall_alike_lowerKeywords (beyond : Bool) (text : List Char) :
    List.Forall₂ Alike text (lowerKeywords beyond text) := by
  fun_induction lowerKeywords beyond text with
  | case1 => exact .nil
  | case2 c cs l rest hr ih =>
    obtain ⟨s, -, hsplit⟩ := exists_spelling hr
    rw [hsplit, List.length_append, Nat.add_sub_cancel, List.take_left]
    exact List.rel_append (alike_loweredPart l s) ih
  | case3 c cs hr hbeyond ih => exact .cons (alike_refl c) ih
  | case4 c cs hr hbeyond => exact forall_alike_refl (c :: cs)

/-! ## The same tokens -/

theorem keyword_of_lookup {w : List Char} {t : Token} (h : Token.keywords.lookup w = some t) :
    w.map Char.toLower = w ∧ String.ofList w ∈ keywordNames := by
  have hall : ∀ p ∈ Token.keywords,
      p.1.map Char.toLower = p.1 ∧ String.ofList p.1 ∈ keywordNames := by
    decide
  obtain ⟨before, after, hsplit, -⟩ := List.lookup_eq_some_iff.mp h
  exact hall (w, t) (hsplit ▸ List.mem_append_right before List.mem_cons_self)

theorem lowerWord_eq_self {w : List Char} (h : Token.keyword? true w = none) : lowerWord w = w := by
  have hall : ∀ name ∈ keywordNames, Token.keywords.lookup name.toList ≠ none := by decide
  refine if_neg fun hmem => hall _ hmem ?_
  rw [String.toList_ofList]
  exact h

theorem keyword?_lowerWord (w : List Char) :
    Token.keyword? false (lowerWord w) = Token.keyword? true w := by
  cases hk : Token.keyword? true w with
  | some t =>
    have hmem : String.ofList (w.map Char.toLower) ∈ keywordNames := (keyword_of_lookup hk).2
    rw [lowerWord, if_pos hmem]
    exact hk
  | none =>
    rw [lowerWord_eq_self hk]
    refine Option.eq_none_iff_forall_ne_some.mpr fun t ht => ?_
    -- A keyword in lower case is a keyword in any case.
    have hany : Token.keyword? true w = some t :=
      (congrArg (Token.keyword? false) (keyword_of_lookup ht).1).trans ht
    rw [hk] at hany
    cases hany

theorem toToken_lowered (awaitsLiteral : Bool) (l : Lexeme) :
    l.lowered.toToken false awaitsLiteral = l.toToken true awaitsLiteral := by
  cases l with
  | word w =>
    rw [lowered, toToken, toToken, keyword?_lowerWord]
    cases hk : Token.keyword? true w with
    | some t => rfl
    | none => rw [lowerWord_eq_self hk]
  | symbol t => rfl
  | quoted content => rfl

theorem read?_lowerWord {w rest changed : List Char} (hne : w ≠ [])
    (hw : ∀ c ∈ w, isWordChar c = true) (hrest : EndsWord rest)
    (h : List.Forall₂ Alike rest changed) :
    read? (lowerWord w ++ changed) = some (.word (lowerWord w), changed) := by
  have halike := alike_lowerWord w
  refine read?_word (fun hnil => hne ?_) (forall_isWordChar_of_alike halike hw) (hrest.of_alike h)
  rw [hnil] at halike
  exact List.forall₂_nil_right_iff.mp halike

/-- **A lexeme with its keyword in lower case is read** in front of a text that is like the one it
stood in front of. -/
theorem read?_lowered {p : Piece false} {rest changed : List Char} (hended : p.Ended rest)
    (h : List.Forall₂ Alike rest changed) :
    read? (p.lexeme.loweredPart p.text ++ changed) = some (p.lexeme.lowered, changed) := by
  cases p with
  | symbol t s known => exact Piece.read?_text (hended.of_alike h)
  | quoted mark content isMark unmarked => exact Piece.read?_text (hended.of_alike h)
  | keyword t s known => exact read?_lowerWord known.word.1 known.word.2 (hended.word rfl) h
  | word s nonempty isWord => exact read?_lowerWord nonempty isWord (hended.word rfl) h

/-! ## Through a text -/

theorem lowerKeywords_of_read? (beyond : Bool) {p : Piece false} {rest : List Char}
    (h : read? (p.text ++ rest) = some (p.lexeme, rest)) :
    lowerKeywords beyond (p.text ++ rest) =
      p.lexeme.loweredPart p.text ++ lowerKeywords beyond rest := by
  obtain ⟨c, cs, hp⟩ := List.exists_cons_of_ne_nil p.text_ne_nil
  have hpart : (p.text ++ rest).take ((p.text ++ rest).length - rest.length) = p.text := by
    rw [List.length_append, Nat.add_sub_cancel, List.take_left]
  rw [hp, List.cons_append] at h hpart ⊢
  rw [lowerKeywords]
  split
  · next l rest' hr =>
    obtain ⟨rfl, rfl⟩ := Prod.mk.inj (Option.some.inj (h.symm.trans hr))
    rw [hpart]
  · next hr =>
    rw [h] at hr
    cases hr

/-- Where no lexeme begins, the character in front stays as it is. -/
theorem exists_lowerKeywords_of_none (beyond : Bool) {c : Char} {cs : List Char}
    (h : read? (c :: cs) = none) :
    ∃ changed, lowerKeywords beyond (c :: cs) = c :: changed ∧ List.Forall₂ Alike cs changed ∧
      (Text.isBlank c = true → changed = lowerKeywords beyond cs) := by
  rw [lowerKeywords]
  split
  · next hr =>
    rw [h] at hr
    cases hr
  · split
    · exact ⟨_, rfl, forall_alike_lowerKeywords beyond cs, fun _ => rfl⟩
    · next hc =>
      refine ⟨cs, rfl, forall_alike_refl cs, fun hblank => ?_⟩
      rw [hblank] at hc
      exact absurd rfl hc

theorem readAll_lowerKeywords_of_none (beyond awaitsLiteral : Bool) {c : Char} {cs : List Char}
    (h : read? (c :: cs) = none) (hc : Text.isBlank c = false) :
    readAll false awaitsLiteral (lowerKeywords beyond (c :: cs)) =
      ((readAll true awaitsLiteral (c :: cs)).1,
        lowerKeywords beyond (readAll true awaitsLiteral (c :: cs)).2) := by
  obtain ⟨changed, hchanged, halike, -⟩ := exists_lowerKeywords_of_none beyond h
  have hnone : read? (c :: changed) = none :=
    read?_of_beginsNothing ((beginsNothing_of_read? hc h).of_alike halike)
  rw [readAll_stray (Text.trimLeft_of_not_isBlank hc cs) h, hchanged,
    readAll_stray (Text.trimLeft_of_not_isBlank hc changed) hnone]

/-- **All the lexemes of a text.** The tokens of the text with its keywords in lower case are those
of the text whose keywords may be in any case, and no lexeme begins where none did. -/
theorem readAll_lowerKeywords (beyond awaitsLiteral : Bool) (text : List Char) :
    readAll false awaitsLiteral (lowerKeywords beyond text) =
      ((readAll true awaitsLiteral text).1,
        lowerKeywords beyond (readAll true awaitsLiteral text).2) := by
  induction text using lowerKeywords.induct beyond generalizing awaitsLiteral with
  | case1 =>
    have hnil : lowerKeywords beyond [] = [] := by rw [lowerKeywords]
    rw [hnil, readAll_blank rfl, readAll_blank rfl, hnil]
  | case2 c cs l rest hr ih =>
    obtain ⟨p, rfl, hp, hended⟩ := Piece.exists_of_read? false hr
    rw [hp] at hr ⊢
    have hlowered := read?_lowered hended (forall_alike_lowerKeywords beyond rest)
    rw [lowerKeywords_of_read? beyond hr, readAll_of_read? hlowered rfl rfl,
      readAll_of_read? hr rfl rfl, toToken_lowered, ih]
    rfl
  | case3 c cs hr hbeyond ih =>
    -- A blank is skipped before and after; at another character both readings stop.
    cases hc : Text.isBlank c with
    | true =>
      obtain ⟨changed, hchanged, -, hblank⟩ := exists_lowerKeywords_of_none beyond hr
      rw [hchanged, hblank hc, readAll_congr (Text.trimLeft_of_isBlank hc _), ih,
        readAll_congr (Text.trimLeft_of_isBlank hc cs)]
    | false => exact readAll_lowerKeywords_of_none beyond awaitsLiteral hr hc
  | case4 c cs hr hbeyond =>
    simp only [Bool.or_eq_true, not_or, Bool.not_eq_true] at hbeyond
    exact readAll_lowerKeywords_of_none beyond awaitsLiteral hr hbeyond.1

end Lexeme

theorem StrayChar.at_lowerKeywords (beyond awaitsLiteral : Bool) (text : List Char) :
    StrayChar.at (Lexeme.lowerKeywords beyond text)
        (Lexeme.lowerKeywords beyond (Lexeme.readAll true awaitsLiteral text).2) =
      StrayChar.at text (Lexeme.readAll true awaitsLiteral text).2 := by
  have halike := Lexeme.forall_alike_lowerKeywords beyond
  unfold StrayChar.at
  rw [← Lexeme.byteLength_eq_of_alike (halike text), ← Lexeme.byteLength_eq_of_alike (halike _)]
  cases hrest : (Lexeme.readAll true awaitsLiteral text).2 with
  | nil => rw [Lexeme.lowerKeywords]
  | cons c cs =>
    obtain ⟨changed, hchanged, -, -⟩ :=
      Lexeme.exists_lowerKeywords_of_none beyond (Lexeme.read?_of_readAll hrest).2
    rw [hchanged]
    rfl

namespace Condition

/-- **A text whose keywords may be in any case** has the same tokens and the same stray character
as the text with its keywords in lower case, read strictly, whatever is done with the words behind
the stray character; and it spells the same condition, or is refused with the same error. -/
theorem parse_lowerKeywords (beyond : Bool) (text : String) :
    TokenList.ofText text.toList true =
        TokenList.ofText (Lexeme.lowerKeywords beyond text.toList) false ∧
      parse true text = parse false (String.ofList (Lexeme.lowerKeywords beyond text.toList)) := by
  have hlist : TokenList.ofText text.toList true =
      TokenList.ofText (Lexeme.lowerKeywords beyond text.toList) false := by
    rw [TokenList.ofText_eq, TokenList.ofText_eq, Lexeme.readAll_lowerKeywords,
      StrayChar.at_lowerKeywords]
  refine ⟨hlist, ?_⟩
  rw [parse, parse, String.toList_ofList, hlist]

/-- Quoted texts stay, and words behind a stray character are searched or not. -/
example :
    [true, false].map (fun beyond =>
        String.ofList (Lexeme.lowerKeywords beyond "A GT 'OR' & Neq".toList)) =
      ["A gt 'OR' & neq", "A gt 'OR' & Neq"] := by
  decide +kernel

end Condition

end RecordFilter
