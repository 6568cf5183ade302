import Mathlib
import RecordFilter.Proofs.Grammar.Composition
import RecordFilter.Proofs.Grammar.Segments
import RecordFilter.Proofs.Lexing.Fit

/-!
# Variants of a text

A text can be varied without a change to its condition: an equality sign between a field and its
literal may stand or be left out, operators have several spellings, a word that is a literal may
stand in quotation marks, and every segment may stand in parentheses. Each of these changes one part
of the text and leaves everything around it, so that they can be made one after the other, in any
number and at any places.

* `Rewrites.fit`: a variant is put together from extents that fit;
* `Rewrites.exists_same`: what a variant derives comes to the same;
* `parse_variants`: the condition of a text and of all its variants.
-/

namespace RecordFilter.Grammar

open RecordFilter.Condition (upcoming)

variable {ignoreCase : Bool}

/-! ## Rewriting -/

/-- White space, and at least one character of it. -/
def IsGap (gap : List Char) : Prop := gap ≠ [] ∧ Text.isBlankText gap = true

/-- The piece is a symbol or a word for the operator. -/
inductive IsSpelling (t : Token) : Piece ignoreCase → Prop
  | symbol {s : String} {known : s ∈ t.symbolsFor} : IsSpelling t (.symbol t s known)
  | keyword {s : List Char} {known : Token.IsKeyword ignoreCase s t} :
    IsSpelling t (.keyword t s known)

theorem IsSpelling.toToken {t : Token} {p : Piece ignoreCase} (h : IsSpelling t p)
    (awaitsLiteral : Bool) : p.lexeme.toToken ignoreCase awaitsLiteral = t := by
  cases h with
  | symbol => rfl
  | @keyword s known =>
    rw [Piece.lexeme, Lexeme.toToken, Token.keyword?_eq_some_iff.mpr known]

/-- One change to a part of a text. -/
inductive Rewrites : List (Extent ignoreCase) → List (Extent ignoreCase) → Prop
  /-- An operator for equality, with white space around it, between a field and its literal. -/
  | insertEquality {before after : List (Extent ignoreCase)} {f l : Extent ignoreCase}
    {name : String} {v : Value} {p : Piece ignoreCase} {gap gap' : List Char}
    (isField : f.token = .field name) (isLiteral : l.token = .literal v)
    (isSpelling : IsSpelling (.comparison .eq) p) (isGap : IsGap gap) (isGap' : IsGap gap') :
    Rewrites (before ++ ([f, l] ++ after))
      (before ++ ([f, ⟨.comparison .eq, gap, p⟩, { l with gap := gap' }] ++ after))
  /-- White space in the place of an operator for equality. -/
  | dropEquality {before after : List (Extent ignoreCase)} {f o l : Extent ignoreCase}
    {name : String} {v : Value} {gap : List Char} (isField : f.token = .field name)
    (isEquality : o.token = .comparison .eq) (isLiteral : l.token = .literal v)
    (isGap : IsGap gap) :
    Rewrites (before ++ ([f, o, l] ++ after)) (before ++ ([f, { l with gap := gap }] ++ after))
  /-- Another spelling of an operator or connective, with white space around it. -/
  | respell {before after : List (Extent ignoreCase)} {x y : Extent ignoreCase}
    {p : Piece ignoreCase} {gap gap' : List Char} (isSpelling : IsSpelling x.token p)
    (isGap : IsGap gap) (isGap' : IsGap gap') :
    Rewrites (before ++ ([x, y] ++ after))
      (before ++ ([⟨x.token, gap, p⟩, { y with gap := gap' }] ++ after))
  /-- A word that is a literal, in quotation marks. -/
  | quote {before after : List (Extent ignoreCase)} {x : Extent ignoreCase} {s : List Char}
    {nonempty : s ≠ []} {isWord : ∀ c ∈ s, Lexeme.isWordChar c = true} {mark : Char}
    {isMark : Lexeme.isMark mark} {unmarked : mark ∉ s}
    (isWritten : x.piece = .word s nonempty isWord)
    (isString : x.token = .literal (.string (String.ofList s))) :
    Rewrites (before ++ ([x] ++ after))
      (before ++ ([{ x with piece := .quoted mark s isMark unmarked }] ++ after))
  /-- A segment in parentheses. -/
  | wrap {before after : List (Extent ignoreCase)} {x : Extent ignoreCase}
    {xs : List (Extent ignoreCase)} {k : Level} {n : k.Node} {gap gap' : List Char}
    (isNode : (x :: xs).map Extent.token = (k.phrase n).tokens)
    (isSegment : IsSegment k (before.map Extent.token) (after.map Extent.token))
    (isBlank : Text.isBlankText gap = true) (isBlank' : Text.isBlankText gap' = true) :
    Rewrites (before ++ (x :: xs ++ after))
      (before ++ (([.opening x.gap] ++ { x with gap := gap } :: xs) ++ [.closing gap'] ++ after))

/-! ## Extents -/

section Fit

open Extent

theorem toToken_of_begins {l : Lexeme} {awaitsLiteral : Bool}
    (h : BeginsOperand (l.toToken ignoreCase awaitsLiteral)) :
    l.toToken ignoreCase awaitsLiteral = l.toToken ignoreCase false := by
  cases l with
  | symbol t => rfl
  | quoted content => rfl
  | word w =>
    cases awaitsLiteral with
    | false => rfl
    | true =>
      simp only [Lexeme.toToken] at h ⊢
      cases hk : Token.keyword? ignoreCase w with
      | some t => rfl
      | none =>
        cases hv : Value.ofNumeral? w with
        | some v => rfl
        | none =>
          rw [hk, hv] at h
          cases h

theorem token_after_field {f l : Extent ignoreCase} {name : String} (h : f.Precedes l)
    (hf : f.token = .field name) : l.token = l.piece.lexeme.toToken ignoreCase true := by
  have htoken := h.token
  rwa [hf] at htoken

theorem fit_insertEquality {before after : List (Extent ignoreCase)} {f l : Extent ignoreCase}
    {name : String} {p : Piece ignoreCase} {gap gap' : List Char} (hf : f.token = .field name)
    (hp : IsSpelling (.comparison .eq) p) (hgap : IsGap gap) (hgap' : IsGap gap')
    (hfit : Fit (before ++ ([f, l] ++ after))) :
    Fit (before ++ ([f, ⟨.comparison .eq, gap, p⟩, { l with gap := gap' }] ++ after)) := by
  obtain ⟨hblank, hchain⟩ := hfit.mid
  have hliteral := token_after_field (List.isChain_cons_cons.mp hchain).1 hf
  refine hfit.splice (by simp) (by simp) ?_ ?_ (fun a h => h) fun b h x hx => ?_
  · simpa using ⟨hblank f (by simp), hgap.2, hgap'.2⟩
  · refine .cons_cons ⟨fun _ => hgap.1, (hp.toToken _).symm⟩ (.cons_cons ⟨fun _ => hgap'.1, ?_⟩ ?_)
    · exact hliteral
    · exact .singleton _
  · cases hx
    exact (h l rfl).of_gap gap'

theorem fit_dropEquality {before after : List (Extent ignoreCase)} {f o l : Extent ignoreCase}
    {name : String} {gap : List Char} (hf : f.token = .field name)
    (ho : o.token = .comparison .eq) (hgap : IsGap gap)
    (hfit : Fit (before ++ ([f, o, l] ++ after))) :
    Fit (before ++ ([f, { l with gap := gap }] ++ after)) := by
  obtain ⟨hblank, hchain⟩ := hfit.mid
  have hol := (List.isChain_cons_cons.mp (List.isChain_cons_cons.mp hchain).2).1
  refine hfit.splice (by simp) (by simp) ?_ ?_ (fun a h => h) fun b h x hx => ?_
  · simpa using ⟨hblank f (by simp), hgap.2⟩
  · refine .cons_cons ⟨fun _ => hgap.1, ?_⟩ (.singleton _)
    have htoken := hol.token
    rw [ho] at htoken
    rw [hf]
    exact htoken
  · cases hx
    exact (h l rfl).of_gap gap

theorem fit_respell {before after : List (Extent ignoreCase)} {x y : Extent ignoreCase}
    {p : Piece ignoreCase} {gap gap' : List Char} (hp : IsSpelling x.token p) (hgap : IsGap gap)
    (hgap' : IsGap gap') (hfit : Fit (before ++ ([x, y] ++ after))) :
    Fit (before ++ ([⟨x.token, gap, p⟩, { y with gap := gap' }] ++ after)) := by
  obtain ⟨-, hchain⟩ := hfit.mid
  have hxy := (List.isChain_cons_cons.mp hchain).1
  refine hfit.splice (by simp) (by simp) ?_ ?_ (fun a _ z hz => ?_) fun b h z hz => ?_
  · simpa using ⟨hgap.2, hgap'.2⟩
  · exact .cons_cons ⟨fun _ => hgap'.1, hxy.token⟩ (.singleton _)
  · cases hz
    exact ⟨fun _ => hgap.1, (hp.toToken _).symm⟩
  · cases hz
    exact (h y rfl).of_gap gap'

theorem fit_quote {before after : List (Extent ignoreCase)} {x : Extent ignoreCase} {s : List Char}
    {mark : Char} (isMark : Lexeme.isMark mark) (unmarked : mark ∉ s)
    (hstring : x.token = .literal (.string (String.ofList s)))
    (hfit : Fit (before ++ ([x] ++ after))) :
    Fit (before ++ ([{ x with piece := .quoted mark s isMark unmarked }] ++ after)) := by
  obtain ⟨hblank, -⟩ := hfit.mid
  have hseparate : (Piece.quoted mark s isMark unmarked : Piece ignoreCase).Separate :=
    Piece.separate_quoted isMark unmarked
  refine hfit.splice (by simp) (by simp) ?_ (.singleton _) (fun a _ y hy => ?_) fun b h y hy => ?_
  · simpa using hblank
  · cases hy
    exact ⟨fun hneeds => absurd hneeds (hseparate.not_needsGap_right _), hstring⟩
  · cases hy
    exact ⟨fun hneeds => absurd hneeds (hseparate.not_needsGap_left _), (h x rfl).token⟩

theorem fit_wrap {before after : List (Extent ignoreCase)} {x : Extent ignoreCase}
    {xs : List (Extent ignoreCase)} {gap gap' : List Char} (hbegins : BeginsOperand x.token)
    (hlast : ∀ y ∈ (x :: xs).getLast?, y.token.awaitsLiteral = false)
    (hgap : Text.isBlankText gap = true) (hgap' : Text.isBlankText gap' = true)
    (hfit : Fit (before ++ (x :: xs ++ after))) :
    Fit (before ++
      (([opening x.gap] ++ { x with gap := gap } :: xs) ++ [closing gap'] ++ after)) := by
  obtain ⟨hblank, hchain⟩ := hfit.mid
  have hopening : (Piece.opening : Piece ignoreCase).Separate := Piece.separate_opening
  have hclosing : (Piece.closing : Piece ignoreCase).Separate := Piece.separate_closing
  have htoken : x.token = x.piece.lexeme.toToken ignoreCase false := by
    obtain ⟨a, ha⟩ := Fit.exists_precedes hfit
    have htoken := ha.token
    rw [htoken] at hbegins
    exact htoken.trans (toToken_of_begins hbegins)
  have hinside : ({ x with gap := gap } :: xs).IsChain Precedes := by
    cases xs with
    | nil => exact .singleton _
    | cons y ys =>
      obtain ⟨hfirst, hrest⟩ := List.isChain_cons_cons.mp hchain
      exact .cons_cons (hfirst.of_gap gap) hrest
  refine hfit.splice (by simp) (by simp) ?_ ?_ (fun a _ y hy => ?_) fun b h y hy => ?_
  · obtain ⟨hx, hxs⟩ := List.forall_mem_cons.mp hblank
    simp only [List.forall_mem_append, List.forall_mem_cons]
    exact ⟨⟨⟨hx, List.forall_mem_nil _⟩, hgap, hxs⟩, hgap', List.forall_mem_nil _⟩
  · refine List.isChain_append.mpr ⟨.cons_cons ⟨fun hneeds => ?_, htoken⟩ hinside, .singleton _, ?_⟩
    · exact absurd hneeds (hopening.not_needsGap_left _)
    · rintro y - z ⟨⟩
      exact ⟨fun hneeds => absurd hneeds (hclosing.not_needsGap_right _), rfl⟩
  · cases hy
    exact ⟨fun hneeds => absurd hneeds (hopening.not_needsGap_right _), rfl⟩
  · rw [List.getLast?_concat] at hy
    cases hy
    have hend := List.getLast?_eq_some_getLast (List.cons_ne_nil x xs)
    have htoken := (h _ hend).token
    rw [hlast _ hend] at htoken
    exact ⟨fun hneeds => absurd hneeds (hclosing.not_needsGap_left _), htoken⟩

theorem awaitsLiteral_of_node {k : Level} {n : k.Node} {ts : List (Extent ignoreCase)}
    (h : ts.map Extent.token = (k.phrase n).tokens) :
    ∀ y ∈ ts.getLast?, y.token.awaitsLiteral = false := by
  intro y hy
  obtain ⟨e, he⟩ := k.exists_expression n
  obtain ⟨before, rfl⟩ := List.getLast?_eq_some_iff.mp hy
  have hawaits := e.awaitsAfter false
  rw [he, ← h, List.map_append] at hawaits
  simpa [Token.awaitsAfter] using hawaits

theorem beginsOperand_of_node {k : Level} {n : k.Node} {x : Extent ignoreCase}
    {xs : List (Extent ignoreCase)} (h : (x :: xs).map Extent.token = (k.phrase n).tokens) :
    BeginsOperand x.token := by
  obtain ⟨e, he⟩ := k.exists_expression n
  obtain ⟨t, ts, htokens, ht⟩ := e.begins
  rw [← he, htokens] at h
  exact (List.cons.inj h).1 ▸ ht

/-- **A variant is put together** from extents that fit. -/
theorem Rewrites.fit {xs xs' : List (Extent ignoreCase)} (h : Rewrites xs xs') (hfit : Fit xs) :
    Fit xs' := by
  cases h with
  | insertEquality hf _ hp hgap hgap' => exact fit_insertEquality hf hp hgap hgap' hfit
  | dropEquality hf ho _ hgap => exact fit_dropEquality hf ho hgap hfit
  | respell hp hgap hgap' => exact fit_respell hp hgap hgap' hfit
  | quote _ hstring => exact fit_quote _ _ hstring hfit
  | wrap hnode _ hgap hgap' =>
    exact fit_wrap (beginsOperand_of_node hnode) (awaitsLiteral_of_node hnode) hgap hgap' hfit

end Fit

/-! ## Derivations -/

/-- A relation with another comparison of the same meaning, wherever it stands. -/
theorem exists_relation {before after : List Token} {name : String} {v : Value}
    (o o' : Option Comparison) (ho : o'.getD .eq = o.getD .eq) {e : Expression}
    (he : e.phrase.tokens = before ++ ((Phrase.relation name o v).tokens ++ after)) :
    ∃ e' : Expression, e'.phrase.tokens = before ++ ((Phrase.relation name o' v).tokens ++ after) ∧
      e.phrase.Same e'.phrase := by
  have hsegment : IsSegment .operand before after := ⟨fun _ _ => trivial, trivial⟩
  have hsame : (Phrase.relation name o v).Same (.relation name o' v) :=
    ⟨rfl, congrArg (Condition.relation · name v) ho⟩
  rw [← phrase_relation] at he hsame
  rw [← phrase_relation name o'] at hsame ⊢
  exact exists_replaced (k := .operand) hsegment hsame he

/-- **What a variant derives comes to the same.** -/
theorem Rewrites.exists_same {xs xs' : List (Extent ignoreCase)} (h : Rewrites xs xs')
    {e : Expression} (he : e.phrase.tokens = xs.map Extent.token) :
    ∃ e' : Expression, e'.phrase.tokens = xs'.map Extent.token ∧ e.phrase.Same e'.phrase := by
  cases h with
  | @insertEquality before after f l name v p gap gap' hf hl =>
    simp only [List.map_append, List.map_cons, hf, hl] at he ⊢
    exact exists_relation none (some .eq) rfl he
  | @dropEquality before after f o l name v gap hf ho hl =>
    simp only [List.map_append, List.map_cons, hf, ho, hl] at he ⊢
    exact exists_relation (some .eq) none rfl he
  | respell => exact ⟨e, by simpa using he, .refl _⟩
  | quote => exact ⟨e, by simpa using he, .refl _⟩
  | @wrap before after x xs k n gap gap' hnode hsegment =>
    rw [List.map_append, List.map_append, hnode] at he
    obtain ⟨e', htokens, hsame⟩ := exists_wrapped hsegment he
    refine ⟨e', ?_, hsame⟩
    rw [htokens, ← hnode]
    simp [Extent.opening, Extent.closing]

/-! ## Texts -/

/-- The second text is the first one after one change to a part of it. -/
def IsVariant (ignoreCase : Bool) (text text' : String) : Prop :=
  ∃ (xs xs' : List (Extent ignoreCase)) (last : List Char), Extent.Fit xs ∧
    Text.isBlankText last = true ∧ Rewrites xs xs' ∧
    text.toList = xs.flatMap Extent.text ++ last ∧ text'.toList = xs'.flatMap Extent.text ++ last

/-- A change to a part of a text leaves what the text comes to. -/
theorem IsVariant.exists_spells {text text' : String} (h : IsVariant ignoreCase text text')
    {e : Expression} (he : Spells ignoreCase text e) :
    ∃ e' : Expression, Spells ignoreCase text' e' ∧ e.phrase.Same e'.phrase := by
  obtain ⟨xs, xs', last, hfit, hlast, hrewrites, htext, htext'⟩ := h
  rw [Spells, htext, hfit.readAll_eq hlast] at he
  obtain ⟨e', htokens, hsame⟩ := hrewrites.exists_same (congrArg Prod.fst he).symm
  refine ⟨e', ?_, hsame⟩
  rw [Spells, htext', (hrewrites.fit hfit).readAll_eq hlast, htokens]

theorem exists_spells_of_variants {text text' : String}
    (h : Relation.ReflTransGen (IsVariant ignoreCase) text text') {e : Expression}
    (he : Spells ignoreCase text e) :
    ∃ e' : Expression, Spells ignoreCase text' e' ∧ e.phrase.Same e'.phrase := by
  induction h with
  | refl => exact ⟨e, he, .refl _⟩
  | tail _ hvariant ih =>
    obtain ⟨e', he', hsame⟩ := ih
    obtain ⟨e'', he'', hsame'⟩ := hvariant.exists_spells he'
    exact ⟨e'', he'', hsame.trans hsame'⟩

/-- **A text and its variants have one condition.** A text that has a condition is put together from
extents that fit, so that it can be varied at every place. After any number of changes, at any
places, the text still has exactly the condition it had, as long as no more groups are open at once
than may be. -/
theorem parse_variants {text : String} {c : Condition}
    (h : Condition.parse ignoreCase text = .ok (some c)) :
    (∃ (xs : List (Extent ignoreCase)) (last : List Char),
      text.toList = xs.flatMap Extent.text ++ last ∧ Extent.Fit xs ∧
      Text.isBlankText last = true) ∧
    ∀ text', Relation.ReflTransGen (IsVariant ignoreCase) text text' →
      OpensAtMost maxNesting (TokenList.ofText text'.toList ignoreCase).tokens →
      Condition.parse ignoreCase text' = .ok (some c) := by
  obtain ⟨e, hspells, -, hrelations, rfl⟩ := parse_eq_some_iff_spells.mp h
  refine ⟨Extent.exists_fit (congrArg Prod.snd hspells), fun text' hvariants hopen => ?_⟩
  obtain ⟨e', hspells', hsame⟩ := exists_spells_of_variants hvariants hspells
  rw [hspells'.tokens_ofText] at hopen
  refine parse_eq_some_iff_spells.mpr ⟨e', hspells', Expression.nesting_le hopen, hrelations, ?_⟩
  exact hsame.condition

/-- One change of each kind: `eq` is put in, `x` is quoted, the first relation is wrapped, `or` is
spelled as a symbol, and the equality sign is left out. -/
theorem parse_variants_sample :
    let text := "a x or b = 2"
    let text' := "( a eq 'x') || b 2"
    let c := Condition.join .or (.relation .eq "a" (.string "x")) (.relation .eq "b" (.integer 2))
    Condition.parse false text = .ok (some c) ∧
      Relation.ReflTransGen (IsVariant false) text text' ∧
      OpensAtMost maxNesting (TokenList.ofText text'.toList false).tokens ∧
      Condition.parse false text' = .ok (some c) := by
  intro text text' c
  let a : Extent false := ⟨.field "a", [], .word ['a'] (by decide) (List.all_eq_true.mp rfl)⟩
  let x : Extent false :=
    ⟨.literal (.string "x"), [' '], .word ['x'] (by decide) (List.all_eq_true.mp rfl)⟩
  let x' : Extent false :=
    ⟨.literal (.string "x"), [' '], .quoted '\'' ['x'] (Or.inr rfl) (by decide)⟩
  let o : Extent false :=
    ⟨.connective .or, [' '], .word ['o', 'r'] (by decide) (List.all_eq_true.mp rfl)⟩
  let o' : Extent false := ⟨.connective .or, [' '], .symbol (.connective .or) "||" (by decide)⟩
  let b : Extent false := ⟨.field "b", [' '], .word ['b'] (by decide) (List.all_eq_true.mp rfl)⟩
  let q : Extent false := ⟨.comparison .eq, [' '], .symbol (.comparison .eq) "=" (by decide)⟩
  let q' : Extent false :=
    ⟨.comparison .eq, [' '], .keyword (.comparison .eq) ['e', 'q'] ⟨"eq", rfl, by decide⟩⟩
  let n : Extent false :=
    ⟨.literal (.integer 2), [' '], .word ['2'] (by decide) (List.all_eq_true.mp rfl)⟩
  have hparse : Condition.parse false text = .ok (some c) := by decide
  have hopen : OpensAtMost maxNesting (TokenList.ofText text'.toList false).tokens := by
    decide
  have hgap : IsGap [' '] := ⟨by decide, by decide⟩
  have hfit : Extent.Fit [a, x, o, b, q, n] := by decide
  have hinsert : Rewrites ([] ++ ([a, x] ++ [o, b, q, n])) ([] ++ ([a, q', x] ++ [o, b, q, n])) :=
    .insertEquality rfl rfl .keyword hgap hgap
  have hquote : Rewrites ([a, q'] ++ ([x] ++ [o, b, q, n])) ([a, q'] ++ ([x'] ++ [o, b, q, n])) :=
    .quote rfl rfl
  have hwrap : Rewrites ([] ++ ([a, q', x'] ++ [o, b, q, n]))
      ([] ++ ([.opening [], { a with gap := [' '] }, q', x', .closing []] ++ [o, b, q, n])) := by
    have hnode : (Level.operand.phrase (Operand.relation "a" (some .eq) (.string "x"))).tokens =
        [.field "a", .comparison .eq, .literal (.string "x")] :=
      congrArg Phrase.tokens (phrase_relation _ _ _)
    exact .wrap hnode.symm ⟨fun _ _ => trivial, trivial⟩ rfl rfl
  let wrapped : List (Extent false) :=
    [.opening [], { a with gap := [' '] }, q', x', .closing []]
  have hrespell : Rewrites (wrapped ++ ([o, b] ++ [q, n])) (wrapped ++ ([o', b] ++ [q, n])) :=
    .respell .symbol hgap hgap
  have hdrop :
      Rewrites (wrapped ++ [o'] ++ ([b, q, n] ++ [])) (wrapped ++ [o'] ++ ([b, n] ++ [])) :=
    .dropEquality rfl rfl rfl hgap
  have hfit₁ := hinsert.fit hfit
  have hfit₂ := hquote.fit hfit₁
  have hfit₃ := hwrap.fit hfit₂
  have hfit₄ := hrespell.fit hfit₃
  have hvariants : Relation.ReflTransGen (IsVariant false) text text' := by
    have h₁ : IsVariant false text "a eq x or b = 2" :=
      ⟨_, _, [], hfit, rfl, hinsert, by decide, by decide⟩
    have h₂ : IsVariant false "a eq x or b = 2" "a eq 'x' or b = 2" :=
      ⟨_, _, [], hfit₁, rfl, hquote, by decide, by decide⟩
    have h₃ : IsVariant false "a eq 'x' or b = 2" "( a eq 'x') or b = 2" :=
      ⟨_, _, [], hfit₂, rfl, hwrap, by decide, by decide⟩
    have h₄ : IsVariant false "( a eq 'x') or b = 2" "( a eq 'x') || b = 2" :=
      ⟨_, _, [], hfit₃, rfl, hrespell, by decide, by decide⟩
    have h₅ : IsVariant false "( a eq 'x') || b = 2" text' :=
      ⟨_, _, [], hfit₄, rfl, hdrop, by decide, by decide⟩
    exact ((((Relation.ReflTransGen.single h₁).tail h₂).tail h₃).tail h₄).tail h₅
  exact ⟨hparse, hvariants, hopen, (parse_variants hparse).2 text' hvariants hopen⟩

end RecordFilter.Grammar
