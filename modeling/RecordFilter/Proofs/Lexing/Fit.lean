import Mathlib
import RecordFilter.Proofs.Lexing.Extent

/-!
# Extents that make up a text

Extents fit together when their gaps are blank, a gap stands wherever one is needed, and every token
is what its piece stands for after the token before it. A text that is put together from extents
that fit falls apart into just their tokens, and every text without a stray character is such a
text. So a part of a text can be exchanged for another one by looking at its own extents and their
neighbours.

* `Fit.readAll_eq`: the tokens of a text that is put together;
* `exists_fit`: every text without a stray character is put together;
* `Fit.splice`: extents in the place of others.
-/

namespace RecordFilter

/-! ## Parentheses -/

namespace Piece

variable {ignoreCase : Bool}

/-- An opening parenthesis. -/
def opening : Piece ignoreCase := .symbol .openGroup "(" (by decide)

/-- A closing parenthesis. -/
def closing : Piece ignoreCase := .symbol .closeGroup ")" (by decide)

/-- The piece touches others without becoming part of them: it is no word, and neither begins with
an equals sign nor takes one. -/
structure Separate (p : Piece ignoreCase) : Prop where
  written : p.isWritten = false
  begins : p.text.head? ≠ some '='
  takes : ¬ Lexeme.TakesEquals p.text

theorem separate_opening : (opening : Piece ignoreCase).Separate :=
  ⟨rfl, show ['('].head? ≠ some '=' by decide, show ¬ Lexeme.TakesEquals ['('] by decide⟩

theorem separate_closing : (closing : Piece ignoreCase).Separate :=
  ⟨rfl, show [')'].head? ≠ some '=' by decide, show ¬ Lexeme.TakesEquals [')'] by decide⟩

theorem separate_quoted {mark : Char} {content : List Char} (isMark : Lexeme.isMark mark)
    (unmarked : mark ∉ content) :
    (quoted mark content isMark unmarked : Piece ignoreCase).Separate := by
  refine ⟨rfl, ?_, ?_⟩
  · rintro ⟨⟩
    exact absurd isMark (by rintro (h | h) <;> cases h)
  · rintro (h | h | h) <;> simp [Piece.text] at h

theorem Separate.not_needsGap_left {p : Piece ignoreCase} (h : p.Separate) (q : Piece ignoreCase) :
    ¬ p.NeedsGap q := by
  rintro (⟨hp, -⟩ | ⟨hp, -⟩)
  · rw [h.written] at hp
    cases hp
  · exact h.takes hp

theorem Separate.not_needsGap_right {q : Piece ignoreCase} (h : q.Separate) (p : Piece ignoreCase) :
    ¬ p.NeedsGap q := by
  rintro (⟨-, hq⟩ | ⟨-, hq⟩)
  · rw [h.written] at hq
    cases hq
  · exact h.begins hq

end Piece

namespace Extent

variable {ignoreCase : Bool}

/-! ## Extents that fit -/

/-- The second extent can stand right after the first one. -/
structure Precedes (x y : Extent ignoreCase) : Prop where
  apart : x.piece.NeedsGap y.piece → y.gap ≠ []
  token : y.token = y.piece.lexeme.toToken ignoreCase x.token.awaitsLiteral

instance (x y : Extent ignoreCase) : Decidable (x.Precedes y) :=
  decidable_of_iff ((x.piece.NeedsGap y.piece → y.gap ≠ []) ∧
    y.token = y.piece.lexeme.toToken ignoreCase x.token.awaitsLiteral)
    ⟨fun h => ⟨h.1, h.2⟩, fun h => ⟨h.apart, h.token⟩⟩

/-- An opening parenthesis after a gap. -/
def opening (gap : List Char) : Extent ignoreCase := ⟨.openGroup, gap, .opening⟩

/-- A closing parenthesis after a gap. -/
def closing (gap : List Char) : Extent ignoreCase := ⟨.closeGroup, gap, .closing⟩

/-- The extents fit together to a text. A text begins like a group. -/
structure Fit (xs : List (Extent ignoreCase)) : Prop where
  blank : ∀ x ∈ xs, Text.isBlankText x.gap = true
  chain : (opening [] :: xs).IsChain Precedes

instance (xs : List (Extent ignoreCase)) : Decidable (Fit xs) :=
  decidable_of_iff ((∀ x ∈ xs, Text.isBlankText x.gap = true) ∧
    (opening [] :: xs).IsChain Precedes) ⟨fun h => ⟨h.1, h.2⟩, fun h => ⟨h.blank, h.chain⟩⟩

/-! ## Reading -/

theorem ended_of_chain {x : Extent ignoreCase} {xs : List (Extent ignoreCase)}
    (hblank : ∀ y ∈ xs, Text.isBlankText y.gap = true) (hchain : (x :: xs).IsChain Precedes)
    {last : List Char} (hlast : Text.isBlankText last = true) :
    x.piece.Ended (xs.flatMap text ++ last) := by
  cases xs with
  | nil =>
    have hended := x.piece.ended_gap hlast fun _ => x.piece.ended_nil
    rwa [List.append_nil] at hended
  | cons y ys =>
    have hnext := (List.isChain_cons_cons.mp hchain).1
    rw [List.flatMap_cons, text, List.append_assoc, List.append_assoc]
    refine x.piece.ended_gap (hblank y List.mem_cons_self) fun hgap => ?_
    exact Piece.ended_text_iff.mpr fun hneeds => hnext.apart hneeds hgap

theorem readAll_of_chain {x : Extent ignoreCase} {xs : List (Extent ignoreCase)}
    (hblank : ∀ y ∈ xs, Text.isBlankText y.gap = true) (hchain : (x :: xs).IsChain Precedes)
    {last : List Char} (hlast : Text.isBlankText last = true) :
    Lexeme.readAll ignoreCase x.token.awaitsLiteral (xs.flatMap text ++ last) =
      (xs.map Extent.token, []) := by
  induction xs generalizing x with
  | nil => exact Lexeme.readAll_blank ((Text.trimLeft_eq_nil_iff _).mpr hlast)
  | cons y ys ih =>
    obtain ⟨hnext, hchain⟩ := List.isChain_cons_cons.mp hchain
    obtain ⟨hgap, hblank⟩ := List.forall_mem_cons.mp hblank
    rw [List.flatMap_cons, text, List.append_assoc, List.append_assoc,
      Lexeme.readAll_congr (Piece.trimLeft_gap hgap _),
      Lexeme.readAll_of_read? (Piece.read?_text (ended_of_chain hblank hchain hlast))
        hnext.token.symm rfl, ih hblank hchain]
    rfl

/-- **The tokens of a text that is put together** are those of its extents. -/
theorem Fit.readAll_eq {xs : List (Extent ignoreCase)} (h : Fit xs) {last : List Char}
    (hlast : Text.isBlankText last = true) :
    Lexeme.readAll ignoreCase false (xs.flatMap text ++ last) = (xs.map Extent.token, []) :=
  readAll_of_chain h.blank h.chain hlast

/-- What is read after an extent is put together from extents that fit after it. -/
theorem exists_chain (awaitsLiteral : Bool) (rest : List Char) {x : Extent ignoreCase}
    (hx : x.token.awaitsLiteral = awaitsLiteral) (hended : x.piece.Ended rest) :
    ∃ (xs : List (Extent ignoreCase)) (last : List Char),
      rest = xs.flatMap text ++ (last ++ (Lexeme.readAll ignoreCase awaitsLiteral rest).2) ∧
      (∀ y ∈ xs, Text.isBlankText y.gap = true) ∧ (x :: xs).IsChain Precedes ∧
      Text.isBlankText last = true := by
  fun_induction Lexeme.readAll ignoreCase awaitsLiteral rest generalizing x with
  | case1 aw rest ht =>
    have hblank := (Text.trimLeft_eq_nil_iff rest).mp ht
    exact ⟨[], rest, by simp, by simp, .singleton x, hblank⟩
  | case2 aw rest c cs ht hr =>
    obtain ⟨gap, hgap, hsplit⟩ := Text.exists_gap rest
    rw [ht] at hsplit
    exact ⟨[], gap, hsplit.symm, by simp, .singleton x, hgap⟩
  | case3 aw rest c cs ht l after hr token more =>
    rename_i ih
    obtain ⟨gap, hgap, hsplit⟩ := Text.exists_gap rest
    obtain ⟨p, rfl, hp, hafter⟩ := Piece.exists_of_read? ignoreCase hr
    rw [ht, hp] at hsplit
    obtain ⟨xs, last, hrest, hblank, hchain, hlast⟩ := ih (x := ⟨token, gap, p⟩) rfl hafter
    refine ⟨⟨token, gap, p⟩ :: xs, last, ?_, List.forall_mem_cons.mpr ⟨hgap, hblank⟩, ?_, hlast⟩
    · rw [List.flatMap_cons, text, List.append_assoc, List.append_assoc, ← hsplit]
      exact congrArg (fun after => gap ++ (p.text ++ after)) hrest
    · refine List.isChain_cons_cons.mpr ⟨⟨fun hneeds hnil => ?_, ?_⟩, hchain⟩
      · rw [← hsplit, show gap = [] from hnil] at hended
        exact Piece.ended_text_iff.mp hended hneeds
      · rw [hx]

/-- **Every text without a stray character is put together** from extents that fit. -/
theorem exists_fit {rest : List Char} (h : (Lexeme.readAll ignoreCase false rest).2 = []) :
    ∃ (xs : List (Extent ignoreCase)) (last : List Char), rest = xs.flatMap text ++ last ∧
      Fit xs ∧ Text.isBlankText last = true := by
  have hended : (Piece.opening : Piece ignoreCase).Ended rest :=
    ⟨nofun, fun htakes => absurd htakes Piece.separate_opening.takes⟩
  obtain ⟨xs, last, hrest, hblank, hchain, hlast⟩ :=
    exists_chain false rest (x := opening []) rfl hended
  rw [h, List.append_nil] at hrest
  exact ⟨xs, last, hrest, ⟨hblank, hchain⟩, hlast⟩

/-! ## Exchanging extents -/

/-- A stretch of extents that fit, apart from its neighbours. -/
theorem Fit.mid {before mid after : List (Extent ignoreCase)} (h : Fit (before ++ (mid ++ after))) :
    (∀ x ∈ mid, Text.isBlankText x.gap = true) ∧ mid.IsChain Precedes := by
  obtain ⟨hblank, hchain⟩ := h
  simp only [List.forall_mem_append] at hblank
  rw [← List.cons_append, List.isChain_append, List.isChain_append] at hchain
  exact ⟨hblank.2.1, hchain.2.1.1⟩

theorem Fit.exists_precedes {before after : List (Extent ignoreCase)} {x : Extent ignoreCase}
    (h : Fit (before ++ x :: after)) : ∃ a : Extent ignoreCase, a.Precedes x := by
  have hchain := h.chain
  rw [← List.cons_append, List.isChain_append] at hchain
  have hlast := List.getLast?_eq_some_getLast (List.cons_ne_nil (opening []) before)
  exact ⟨_, hchain.2.2 _ hlast x rfl⟩

theorem Precedes.of_gap {x b : Extent ignoreCase} (h : x.Precedes b) (gap : List Char) :
    ({ x with gap := gap } : Extent ignoreCase).Precedes b := ⟨h.apart, h.token⟩

/-- **Extents in the place of others**: they have to fit together, and to fit to every neighbour
that the others fit to. -/
theorem Fit.splice {before mid mid' after : List (Extent ignoreCase)}
    (h : Fit (before ++ (mid ++ after))) (hmid : mid ≠ []) (hmid' : mid' ≠ [])
    (hblank : ∀ x ∈ mid', Text.isBlankText x.gap = true) (hchain : mid'.IsChain Precedes)
    (hfirst : ∀ a : Extent ignoreCase, (∀ y ∈ mid.head?, a.Precedes y) →
      ∀ y ∈ mid'.head?, a.Precedes y)
    (hlast : ∀ b : Extent ignoreCase, (∀ x ∈ mid.getLast?, x.Precedes b) →
      ∀ x ∈ mid'.getLast?, x.Precedes b) :
    Fit (before ++ (mid' ++ after)) := by
  obtain ⟨hblanks, hchains⟩ := h
  simp only [List.forall_mem_append] at hblanks
  constructor
  · simp only [List.forall_mem_append]
    exact ⟨hblanks.1, hblank, hblanks.2.2⟩
  · rw [← List.cons_append, List.isChain_append, List.isChain_append] at hchains ⊢
    obtain ⟨hbefore, ⟨-, hafter, hright⟩, hleft⟩ := hchains
    rw [List.head?_append_of_ne_nil _ hmid] at hleft
    rw [List.head?_append_of_ne_nil _ hmid']
    refine ⟨hbefore, ⟨hchain, hafter, fun x hx b hb => ?_⟩, fun a ha => hfirst a (hleft a ha)⟩
    exact hlast b (fun x hx => hright x hx b hb) x hx

end Extent

end RecordFilter
