import Mathlib
import RecordFilter.Text.Cut
import RecordFilter.Proofs.Lexing.Layout

/-!
# The part of the text that a token takes

Each token takes a part of the text that begins where the last one ended: white space and one piece.
A run of the tokenizer takes one such part after the other. What it leaves is white space, or white
space and a stray character that begins no piece; and the text before a stray character has the same
tokens as the whole text.

* `Tokenizer.exists_runs`: the run of the tokenizer over a text;
* `ofText_extents`: no character of a text is lost, and none is taken twice.
-/

namespace RecordFilter

/-- A token with the part of the text that it takes. -/
structure Extent (ignoreCase : Bool) where
  token : Token
  gap : List Char
  piece : Piece ignoreCase

namespace Extent

/-- The part of the text. -/
def text {ignoreCase : Bool} (x : Extent ignoreCase) : List Char := x.gap ++ x.piece.text

end Extent

namespace Lexeme

/-! ## Where no lexeme begins -/

/-- The character, with the given text after it, begins no lexeme although it is not blank. -/
def BeginsNothing (c : Char) (rest : List Char) : Prop :=
  (c = '!' ∧ rest.head? ≠ some '=') ∨ (c = '&' ∧ rest.head? ≠ some '&') ∨
    (c = '|' ∧ rest.head? ≠ some '|') ∨ (isMark c ∧ c ∉ rest)

theorem none_of_read? {text : List Char} (h : read? text = none) :
    symbol? text = none ∧ quoted? text = none ∧ word? text = none := by
  unfold read? at h
  cases hs : symbol? text with
  | some found =>
    rw [hs] at h
    cases h
  | none =>
    rw [hs] at h
    cases hq : quoted? text with
    | some found =>
      rw [hq] at h
      cases h
    | none =>
      rw [hq] at h
      exact ⟨rfl, rfl, h⟩

theorem symbol?_append_ne_none {s : List Char} {t : Token} (h : (s, t) ∈ Token.symbols)
    (rest : List Char) : symbol? (s ++ rest) ≠ none := by
  intro hnone
  have hs := List.findSome?_eq_none_iff.mp hnone (s, t) h
  dsimp only at hs
  rw [Text.dropPrefix?_append] at hs
  cases hs

/-- **A character that begins no lexeme** is half an operator, or a mark without its partner. -/
theorem beginsNothing_of_read? {c : Char} {cs : List Char} (hblank : Text.isBlank c = false)
    (h : read? (c :: cs) = none) : BeginsNothing c cs := by
  obtain ⟨hsymbol, hquoted, hword⟩ := none_of_read? h
  have hchar : isWordChar c = false := by
    by_contra hc
    rw [Bool.not_eq_false] at hc
    simp [word?, hc] at hword
  have hsingle : ∀ t, ([c], t) ∉ Token.symbols := fun t hmem =>
    symbol?_append_ne_none hmem cs hsymbol
  have hdouble : ∀ d t, ([c, d], t) ∈ Token.symbols → cs.head? ≠ some d := fun d t hmem hd => by
    obtain ⟨ds, rfl⟩ := List.head?_eq_some_iff.mp hd
    exact symbol?_append_ne_none hmem ds hsymbol
  have hmark : isMark c → c ∉ cs := fun hc hmem => by
    obtain ⟨content, rest, rfl, hcontent⟩ := List.eq_append_cons_of_mem hmem
    rw [read?_quoted hc hcontent rest] at h
    cases h
  rw [isWordChar, hblank, Bool.not_false, Bool.true_and, Bool.not_eq_false'] at hchar
  have hmem : c ∈ "()\"'=!<>&|".toList := List.contains_iff_mem.mp hchar
  simp only [String.reduceToList, List.mem_cons, List.not_mem_nil, or_false] at hmem
  rcases hmem with rfl | rfl | rfl | rfl | rfl | rfl | rfl | rfl | rfl | rfl
  · exact absurd (by decide) (hsingle .openGroup)
  · exact absurd (by decide) (hsingle .closeGroup)
  · exact Or.inr (Or.inr (Or.inr ⟨Or.inl rfl, hmark (Or.inl rfl)⟩))
  · exact Or.inr (Or.inr (Or.inr ⟨Or.inr rfl, hmark (Or.inr rfl)⟩))
  · exact absurd (by decide) (hsingle (.comparison .eq))
  · exact Or.inl ⟨rfl, hdouble '=' (.comparison .neq) (by decide)⟩
  · exact absurd (by decide) (hsingle (.comparison .lt))
  · exact absurd (by decide) (hsingle (.comparison .gt))
  · exact Or.inr (Or.inl ⟨rfl, hdouble '&' (.connective .and) (by decide)⟩)
  · exact Or.inr (Or.inr (Or.inl ⟨rfl, hdouble '|' (.connective .or) (by decide)⟩))

/-- Half an operator begins no lexeme, nor does a mark without its partner. -/
theorem read?_of_beginsNothing {c : Char} {cs : List Char} (h : BeginsNothing c cs) :
    read? (c :: cs) = none := by
  have hnone (hs : symbol? (c :: cs) = none) (hq : quoted? (c :: cs) = none)
      (hw : isWordChar c = false) : read? (c :: cs) = none := by
    simp [read?, hs, hq, word?, hw]
  rcases h with ⟨rfl, hd⟩ | ⟨rfl, hd⟩ | ⟨rfl, hd⟩ | ⟨hmark, hcs⟩
  iterate 3
    refine hnone ?_ (quoted?_eq_none (by rintro (h | h) <;> cases h) cs) (by decide)
    cases cs with
    | nil => rfl
    | cons e es =>
      have he : _ ≠ e := fun he => hd (congrArg some he.symm)
      simp [symbol?, Token.symbols, Text.dropPrefix?, he]
  have hquoted : quoted? (c :: cs) = none := by
    have hall : ∀ d ∈ cs, (d != c) = true := fun d hd =>
      bne_iff_ne.mpr fun heq => hcs (heq ▸ hd)
    rw [quoted?, if_pos (show c = '"' ∨ c = '\'' from hmark), List.dropWhile_eq_nil_iff.mpr hall]
  rcases hmark with rfl | rfl
  · exact hnone (symbol?_eq_none (by decide) cs) hquoted (by decide)
  · exact hnone (symbol?_eq_none (by decide) cs) hquoted (by decide)

theorem read?_of_readAll {ignoreCase awaitsLiteral : Bool} {text : List Char} {c : Char}
    {cs : List Char} (h : (readAll ignoreCase awaitsLiteral text).2 = c :: cs) :
    Text.isBlank c = false ∧ read? (c :: cs) = none := by
  fun_induction readAll ignoreCase awaitsLiteral text with
  | case1 => cases h
  | case2 aw text d ds ht hr =>
    obtain ⟨rfl, rfl⟩ := List.cons.inj h
    exact ⟨Text.isBlank_trimLeft ht, hr⟩
  | case3 aw text d ds ht l rest hr token more ih => exact ih h

end Lexeme

namespace Text

/-! ## Parts of a text -/

theorem byteLength_pos_of_ne_nil {text : List Char} (h : text ≠ []) :
    0 < byteLength text := by
  obtain ⟨c, cs, rfl⟩ := List.exists_cons_of_ne_nil h
  exact byteLength_pos c cs

theorem cut?_append (before taken rest : List Char) :
    cut? (byteLength before) (byteLength (before ++ taken))
      (before ++ (taken ++ rest)) = some taken := by
  rw [cut?, dropBytes?, splitBytes?_byteLength, byteLength_append,
    Nat.add_sub_cancel_left, Option.map_some, Option.bind_some, splitBytes?_byteLength]
  rfl

theorem exists_gap (text : List Char) :
    ∃ gap, isBlankText gap = true ∧ gap ++ trimLeft text = text :=
  ⟨_, List.all_takeWhile, List.takeWhile_append_dropWhile⟩

end Text

namespace Tokenizer

variable {ignoreCase : Bool}

/-! ## Runs -/

/-- The next token takes the part `x` of the text, from one cursor to the other. -/
structure Takes (t : Tokenizer) (x : Extent ignoreCase) (t' : Tokenizer) : Prop where
  next : t.nextToken = (x.token, t')
  more : x.token ≠ .endOfInput
  source : t'.source = t.source
  blank : Text.isBlankText x.gap = true
  range : Text.cut? t.cursor t'.cursor t.source = some x.text
  advance : t.cursor < t'.cursor

/-- Token after token takes its part of the text. -/
inductive Runs : Tokenizer → List (Extent ignoreCase) → Tokenizer → Prop
  | nil (t : Tokenizer) : Runs t [] t
  | cons {t t' last : Tokenizer} {x : Extent ignoreCase} {xs : List (Extent ignoreCase)}
    (first : t.Takes x t') (rest : Runs t' xs last) : Runs t (x :: xs) last

/-- The tokenizer that has read the first of the two texts and not yet the second. -/
def between (ignoreCase : Bool) (before rest : List Char) (awaitsLiteral : Bool) : Tokenizer :=
  ⟨before ++ rest, ignoreCase, rest, awaitsLiteral, none, false⟩

theorem cursor_between (before rest : List Char) (awaitsLiteral : Bool) :
    (between ignoreCase before rest awaitsLiteral).cursor = Text.byteLength before := by
  rw [cursor, between, Text.byteLength_append, Nat.add_sub_cancel]

theorem takes_of_read? {before gap rest : List Char} {p : Piece ignoreCase} (awaitsLiteral : Bool)
    (hgap : Text.isBlankText gap = true)
    (h : Lexeme.read? (p.text ++ rest) = some (p.lexeme, rest)) :
    (between ignoreCase before (gap ++ (p.text ++ rest)) awaitsLiteral).Takes
      ⟨p.lexeme.toToken ignoreCase awaitsLiteral, gap, p⟩
      (between ignoreCase (before ++ (gap ++ p.text)) rest
        (p.lexeme.toToken ignoreCase awaitsLiteral).awaitsLiteral) where
  next := by
    obtain ⟨c, cs, hp⟩ := List.exists_cons_of_ne_nil p.text_ne_nil
    rw [hp, List.cons_append] at h
    have hblank : ¬ Text.isBlank c = true := by
      rw [Lexeme.not_isBlank_of_read? h]
      exact Bool.false_ne_true
    have htrim : Text.trimLeft (gap ++ (p.text ++ rest)) = c :: (cs ++ rest) := by
      rw [Piece.trimLeft_gap hgap, hp, List.cons_append, Text.trimLeft,
        List.dropWhile_cons_of_neg hblank]
    simp [nextToken, between, htrim, h, after]
  more := Lexeme.toToken_ne_endOfInput h ignoreCase awaitsLiteral
  source := by
    simp only [between, List.append_assoc]
  blank := hgap
  range := by
    rw [cursor_between, cursor_between, between, ← List.append_assoc gap, Text.cut?_append]
    rfl
  advance := by
    rw [cursor_between, cursor_between, Text.byteLength_append, Text.byteLength_append]
    have hpos := Text.byteLength_pos_of_ne_nil p.text_ne_nil
    omega

/-- A tokenizer in front of nothing but white space, or of a character that begins no lexeme, is at
its end. -/
theorem nextToken_of_stop (ignoreCase : Bool) (before : List Char) {gap rest : List Char}
    (awaitsLiteral : Bool) (hgap : Text.isBlankText gap = true)
    (hrest : ∀ c cs, rest = c :: cs → Text.isBlank c = false ∧ Lexeme.read? (c :: cs) = none) :
    (between ignoreCase before (gap ++ rest) awaitsLiteral).nextToken.1 = .endOfInput ∧
      (between ignoreCase before (gap ++ rest) awaitsLiteral).nextToken.2.stray =
        StrayChar.at (before ++ (gap ++ rest)) rest := by
  cases rest with
  | nil =>
    have htrim : Text.trimLeft (gap ++ []) = [] := Piece.trimLeft_gap hgap []
    rw [List.append_nil] at htrim
    simp [nextToken, between, htrim, atEnd, StrayChar.at]
  | cons c cs =>
    obtain ⟨hblank, hread⟩ := hrest c cs rfl
    have htrim : Text.trimLeft (gap ++ c :: cs) = c :: cs := by
      rw [Piece.trimLeft_gap hgap, Text.trimLeft,
        List.dropWhile_cons_of_neg (by rw [hblank]; exact Bool.false_ne_true)]
    simp [nextToken, between, htrim, hread, stoppedAt, atEnd, StrayChar.at]

/-- **The run of the tokenizer over a text**, from any place in it. -/
theorem exists_runs (ignoreCase awaitsLiteral : Bool) (text : List Char) (before : List Char)
    (previous : Option (Piece ignoreCase)) (hprevious : ∀ q ∈ previous, q.Ended text) :
    ∃ (xs : List (Extent ignoreCase)) (gap : List Char) (awaits : Bool),
      xs.map Extent.token = (Lexeme.readAll ignoreCase awaitsLiteral text).1 ∧
      Piece.tokensFrom ignoreCase awaitsLiteral ((xs.map Extent.piece).map Piece.lexeme) =
        (Lexeme.readAll ignoreCase awaitsLiteral text).1 ∧
      text = xs.flatMap Extent.text ++ (gap ++ (Lexeme.readAll ignoreCase awaitsLiteral text).2) ∧
      Runs (between ignoreCase before text awaitsLiteral) xs
        (between ignoreCase (before ++ xs.flatMap Extent.text)
          (gap ++ (Lexeme.readAll ignoreCase awaitsLiteral text).2) awaits) ∧
      Text.isBlankText gap = true ∧
      Piece.Written previous (xs.map Extent.piece) (xs.flatMap Extent.text ++ gap) := by
  fun_induction Lexeme.readAll ignoreCase awaitsLiteral text generalizing before previous with
  | case1 aw text ht =>
    have hblank := (Text.trimLeft_eq_nil_iff text).mp ht
    exact ⟨[], text, aw, rfl, rfl, by simp, by simpa using Runs.nil _, hblank, .nil hblank⟩
  | case2 aw text c cs ht hr =>
    obtain ⟨gap, hgap, hsplit⟩ := Text.exists_gap text
    rw [ht] at hsplit
    refine ⟨[], gap, aw, rfl, rfl, hsplit.symm, ?_, hgap, .nil hgap⟩
    simpa [hsplit] using Runs.nil _
  | case3 aw text c cs ht l rest hr token more ih =>
    obtain ⟨gap, hgap, hsplit⟩ := Text.exists_gap text
    obtain ⟨p, rfl, hp, hended⟩ := Piece.exists_of_read? ignoreCase hr
    rw [ht, hp] at hsplit
    rw [hp] at hr
    obtain ⟨xs, last, awaits, htokens, hpieces, hrest, hruns, hlast, hwritten⟩ :=
      ih (before ++ (gap ++ p.text)) (some p) (fun q hq => Option.some.inj hq ▸ hended)
    subst hsplit
    refine ⟨⟨token, gap, p⟩ :: xs, last, awaits, ?_, ?_, ?_, ?_, hlast, ?_⟩
    · rw [List.map_cons, htokens]
    · rw [List.map_cons, List.map_cons, Piece.tokensFrom, hpieces]
    · calc gap ++ (p.text ++ rest) = (gap ++ p.text) ++ rest := (List.append_assoc _ _ _).symm
        _ = (gap ++ p.text) ++ (xs.flatMap Extent.text ++ (last ++ more.2)) := congrArg _ hrest
        _ = ((gap ++ p.text) ++ xs.flatMap Extent.text) ++ (last ++ more.2) :=
          (List.append_assoc _ _ _).symm
    · rw [List.flatMap_cons, ← List.append_assoc before]
      exact .cons (takes_of_read? aw hgap hr) hruns
    · rw [List.flatMap_cons, List.append_assoc, Extent.text, List.append_assoc]
      refine .cons hgap (fun q hq hneeds hnil => ?_) hwritten
      have hq := hprevious q hq
      rw [show gap = [] from hnil] at hq
      exact Piece.ended_text_iff.mp hq hneeds

end Tokenizer

namespace Extent

theorem length_le {ignoreCase : Bool} (xs : List (Extent ignoreCase)) :
    xs.length ≤ Text.byteLength (xs.flatMap text) := by
  induction xs with
  | nil => exact Nat.le_refl 0
  | cons x xs ih =>
    have hpos := Text.byteLength_pos_of_ne_nil x.piece.text_ne_nil
    rw [List.flatMap_cons, text, Text.byteLength_append, Text.byteLength_append, List.length_cons]
    omega

end Extent

namespace TokenList

/-- **No character of a text is lost, and none is taken twice.** The tokenizer runs from the
beginning of the text to a place where it is at its end, and hands out the tokens of the run, which
are those that the pieces taken stand for. The parts that they take are all of the text but white
space, or all of the text before a stray character but white space; and a text that is cut off
before its stray character has the same tokens, and no stray character. -/
theorem ofText_extents (text : List Char) (ignoreCase : Bool) :
    ∃ (xs : List (Extent ignoreCase)) (last : Tokenizer) (gap : List Char),
      (Tokenizer.ofText text ignoreCase).Runs xs last ∧ last.nextToken.1 = .endOfInput ∧
      last.nextToken.2.stray = (ofText text ignoreCase).stray ∧
      (ofText text ignoreCase).tokens = xs.map Extent.token ++ [.endOfInput] ∧
      Piece.ReadsAll none (xs.map Extent.piece) (xs.map Extent.token) ∧
      xs.length ≤ Text.byteLength text ∧ Text.isBlankText gap = true ∧
      match (ofText text ignoreCase).stray with
      | none => text = xs.flatMap Extent.text ++ gap
      | some s => ∃ rest,
        Text.splitBytes? s.offset text = some (xs.flatMap Extent.text ++ gap, s.char :: rest) ∧
        Lexeme.BeginsNothing s.char rest ∧
        ofText (xs.flatMap Extent.text ++ gap) ignoreCase =
          ⟨xs.map Extent.token ++ [.endOfInput], none⟩ := by
  obtain ⟨xs, gap, awaits, htokens, hpieces, hsplit, hruns, hgap, hwritten⟩ :=
    Tokenizer.exists_runs ignoreCase false text [] none (fun q hq => nomatch hq)
  have hstop : ∀ c cs, (Lexeme.readAll ignoreCase false text).2 = c :: cs →
      Text.isBlank c = false ∧ Lexeme.read? (c :: cs) = none :=
    fun c cs => Lexeme.read?_of_readAll
  obtain ⟨hend, hstray⟩ :=
    Tokenizer.nextToken_of_stop ignoreCase (xs.flatMap Extent.text) awaits hgap hstop
  have hlist := ofText_eq text ignoreCase
  rw [← htokens] at hlist
  rw [← hsplit] at hstray
  refine ⟨xs, _, gap, hruns, hend, ?_, ?_, ?_, ?_, hgap, ?_⟩
  · rw [hlist]
    exact hstray
  · rw [hlist]
  · exact Piece.readsAll_iff.mpr (htokens.trans hpieces.symm)
  · have hle := Extent.length_le xs
    rw [hsplit, Text.byteLength_append]
    omega
  · rw [hlist]
    generalize (Lexeme.readAll ignoreCase false text).2 = rest at hsplit hstop
    rw [← List.append_assoc] at hsplit
    cases rest with
    | nil => exact hsplit.trans (List.append_nil _)
    | cons c cs =>
      have hoffset : Text.byteLength text - Text.byteLength (c :: cs) =
          Text.byteLength (xs.flatMap Extent.text ++ gap) := by
        rw [hsplit, Text.byteLength_append, Nat.add_sub_cancel]
      refine ⟨cs, ?_, Lexeme.beginsNothing_of_read? (hstop c cs rfl).1 (hstop c cs rfl).2, ?_⟩
      · dsimp only
        rw [hoffset, hsplit, Text.splitBytes?_byteLength]
      · rw [ofText_eq, hwritten.readAll_eq false, hpieces, htokens]
        rfl

end TokenList

end RecordFilter
