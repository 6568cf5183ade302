import Mathlib
import RecordFilter.Condition.Eval
import RecordFilter.Proofs.Grammar.Recognition
import RecordFilter.Proofs.Grammar.Scan
import RecordFilter.Proofs.Lexing.Append
import RecordFilter.Proofs.Printing.Canonical

/-!
# Expressions joined by a connective

Two expressions can be joined by putting each into parentheses, or by writing the connective between
them as they stand. With parentheses the condition is the join of the two. Without them the
operands of both make one chain, which groups to the left, so that the tree is another one; it means
the same as the join as long as the connective binds no operand away from its expression. `or`
never does, and `and` does not when every `or` stands in a group.

* `Expression.nesting_le`: the parentheses of a derivation, counted in its tokens;
* `Joins`, `joins_chain`: a chain that goes on with another one means the join of both;
* `parse_grouped`: what is read from two expressions in parentheses;
* `parse_composed`: joined expressions, with parentheses and without.
-/

namespace RecordFilter

theorem Connective.apply_assoc (c : Connective) (a b d : Bool) :
    c.apply (c.apply a b) d = c.apply a (c.apply b d) := by
  cases c
  · exact Bool.and_assoc a b d
  · exact Bool.or_assoc a b d

namespace Grammar

open RecordFilter.Condition

/-! ## Open groups -/

/-- At most `n` groups are open at once. -/
def OpensAtMost (n : Nat) (ts : List Token) : Prop := ∀ p ∈ ts.inits, openGroups p ≤ n

/-- Every `or` stands in a group. -/
def OrsGrouped (ts : List Token) : Prop :=
  ∀ p ∈ ts.inits, p ++ [.connective .or] <+: ts → 0 < openGroups p

instance (n : Nat) (ts : List Token) : Decidable (OpensAtMost n ts) :=
  inferInstanceAs (Decidable (∀ p ∈ _, _))

instance (ts : List Token) : Decidable (OrsGrouped ts) :=
  inferInstanceAs (Decidable (∀ p ∈ _, _))

/-- The phrase closes the groups that it opens, and opens `nesting` of them before it closes one
again. -/
structure Balanced (p : Phrase) : Prop where
  closed : p.tokens.count .openGroup = p.tokens.count .closeGroup
  deepest : ∃ l, l <+: p.tokens ∧ l.count .openGroup = l.count .closeGroup + p.nesting

theorem balanced_inherited : Inherited Balanced where
  relation field comparison literal := by
    refine ⟨?_, [], List.nil_prefix, rfl⟩
    cases comparison <;> simp [Phrase.relation]
  group := by
    rintro p ⟨hclosed, l, hl, hdeep⟩
    refine ⟨by simp [Phrase.group, hclosed], .openGroup :: l, ?_, ?_⟩
    · exact List.cons_prefix_cons.mpr ⟨rfl, hl.trans (List.prefix_append _ _)⟩
    · simp only [Phrase.group, List.count_cons_self, hdeep]
      rw [List.count_cons_of_ne (by decide), Nat.add_assoc]
  join := by
    rintro c p q ⟨hclosed, l, hl, hdeep⟩ ⟨hclosed', l', hl', hdeep'⟩
    refine ⟨by simp [Phrase.join, hclosed, hclosed'], ?_⟩
    -- The most groups are open where they are in the deeper one of the two.
    rcases Nat.le_total q.nesting p.nesting with hle | hle
    · refine ⟨l, hl.trans (List.prefix_append _ _), ?_⟩
      rw [hdeep, Phrase.join, Nat.max_eq_left hle]
    · refine ⟨p.tokens ++ .connective c :: l', ?_, ?_⟩
      · exact List.prefix_append_right_inj _ |>.mpr (List.cons_prefix_cons.mpr ⟨rfl, hl'⟩)
      · simp [Phrase.join, Nat.max_eq_right hle, hclosed, hdeep']
        omega

/-- No more groups are nested in a derivation than its tokens have open at once. -/
theorem Expression.nesting_le {e : Expression} {n : Nat} {rest : List Token}
    (h : OpensAtMost n (e.phrase.tokens ++ rest)) : e.phrase.nesting ≤ n := by
  obtain ⟨-, l, hl, hdeep⟩ := e.inherits balanced_inherited
  have hopen := h l ((List.mem_inits _ _).mpr (hl.trans (List.prefix_append _ _)))
  unfold openGroups at hopen
  omega

theorem Expression.eq_conjunction {e : Expression} {rest : List Token}
    (h : OrsGrouped (e.phrase.tokens ++ rest)) : ∃ c : Conjunction, e = .chain c [] := by
  obtain ⟨first, more⟩ := e
  cases more with
  | nil => exact ⟨first, rfl⟩
  | cons next more =>
    have htokens : first.phrase.tokens ++ [.connective .or] <+:
        (Expression.chain first (next :: more)).phrase.tokens ++ rest := by
      simp [Phrase.tokens_chain, Phrase.join]
    have hopen := h _ ((List.mem_inits _ _).mpr ((List.prefix_append _ _).trans htokens)) htokens
    have hclosed := (first.inherits balanced_inherited).closed
    unfold openGroups at hopen
    omega

/-! ## Chains that go on with another one -/

/-- The tokens of the third phrase are those of the others with the connective between them, and it
means the join of both. -/
structure Joins (c : Connective) (p q r : Phrase) : Prop where
  tokens : r.tokens = p.tokens ++ .connective c :: q.tokens
  nesting : ∀ n, p.nesting ≤ n → q.nesting ≤ n → r.nesting ≤ n
  relations : r.relations = p.relations + q.relations
  holds : ∀ fields, r.condition.holds fields =
    c.apply (p.condition.holds fields) (q.condition.holds fields)

/-- A chain whose first phrase is joined means the join with the chain. -/
theorem holds_chain_join (c : Connective) (fields : Fields) : ∀ (more : List Phrase)
    (p q : Phrase), (Phrase.chain c (.join c p q) more).condition.holds fields =
      c.apply (p.condition.holds fields) ((Phrase.chain c q more).condition.holds fields)
  | [], p, q => holds_join c p.condition q.condition fields
  | r :: more, p, q => by
    rw [Phrase.chain_cons, Phrase.chain_cons, holds_chain_join c fields more (.join c p q) r,
      holds_chain_join c fields more q r, ← c.apply_assoc]
    exact congrArg (c.apply · _) (holds_join c p.condition q.condition fields)

/-- **A chain that goes on with another one means the join of both.** -/
theorem joins_chain (c : Connective) (p q : Phrase) (more last : List Phrase) :
    Joins c (.chain c p more) (.chain c q last) (.chain c p (more ++ q :: last)) where
  tokens := by
    simp [Phrase.tokens_chain, Phrase.tail]
  nesting n := by
    simp only [Phrase.nesting_chain_le, List.forall_mem_append, List.forall_mem_cons]
    exact fun hp hq => ⟨hp.1, hp.2, hq⟩
  relations := by
    simp only [Phrase.relations_chain, List.map_append, List.map_cons, List.sum_append,
      List.sum_cons]
    omega
  holds fields := by
    rw [Phrase.chain_append, Phrase.chain_cons]
    exact holds_chain_join c fields last _ q

theorem exists_joins_or (e₁ e₂ : Expression) :
    ∃ e : Expression, Joins .or e₁.phrase e₂.phrase e.phrase := by
  obtain ⟨first₁, more₁⟩ := e₁
  obtain ⟨first₂, more₂⟩ := e₂
  refine ⟨.chain first₁ (more₁ ++ first₂ :: more₂), ?_⟩
  rw [phrase_expression, phrase_expression, phrase_expression, List.map_append, List.map_cons]
  exact joins_chain .or _ _ _ _

theorem exists_joins_and {e₁ e₂ : Expression} {c₁ c₂ : Conjunction} (h₁ : e₁ = .chain c₁ [])
    (h₂ : e₂ = .chain c₂ []) : ∃ e : Expression, Joins .and e₁.phrase e₂.phrase e.phrase := by
  subst h₁ h₂
  obtain ⟨first₁, more₁⟩ := c₁
  obtain ⟨first₂, more₂⟩ := c₂
  refine ⟨.chain (.chain first₁ (more₁ ++ first₂ :: more₂)) [], ?_⟩
  simp only [phrase_expression, phrase_conjunction, List.map_nil, Phrase.chain_nil,
    List.map_append, List.map_cons]
  exact joins_chain .and _ _ _ _

theorem exists_grouped (c : Connective) (e₁ e₂ : Expression) :
    ∃ e : Expression, e.phrase = .join c e₁.phrase.group e₂.phrase.group := by
  cases c with
  | and => exact ⟨.chain (.chain (.group e₁) [.group e₂]) [], by simp⟩
  | or => exact ⟨.chain (.chain (.group e₁) []) [.chain (.group e₂) []], by simp⟩

/-! ## Texts -/

theorem Expression.awaitsAfter (e : Expression) (awaitsLiteral : Bool) :
    Token.awaitsAfter awaitsLiteral e.phrase.tokens = false := by
  have hinherited : Inherited fun p => ∀ aw, Token.awaitsAfter aw p.tokens = false := by
    refine ⟨?_, ?_, ?_⟩
    · intro field comparison literal aw
      cases comparison <;> rfl
    · intro p _ aw
      simp [Phrase.group, Token.awaitsAfter, Token.awaitsLiteral]
    · intro c p q _ hq aw
      simp only [Phrase.join, Token.awaitsAfter, List.foldl_append, List.foldl_cons]
      exact hq _
  exact e.inherits hinherited awaitsLiteral

/-- The text falls apart into the tokens of the derivation. -/
def Spells (ignoreCase : Bool) (text : String) (e : Expression) : Prop :=
  Lexeme.readAll ignoreCase false text.toList = (e.phrase.tokens, [])

variable {ignoreCase : Bool} {e₁ e₂ : String} {c₁ c₂ : Condition}

theorem parse_eq_some_iff_spells {text : String} {c : Condition} :
    Condition.parse ignoreCase text = .ok (some c) ↔
      ∃ e, Spells ignoreCase text e ∧ e.phrase.nesting ≤ maxNesting ∧
        c.relations ≤ maxRelations ∧ e.phrase.condition = c := by
  rw [parse_eq_some_iff]
  constructor
  · rintro ⟨hrest, e, htokens, hnesting, hrelations, rfl⟩
    exact ⟨e, Prod.ext htokens.symm hrest, hnesting, e.relations_condition ▸ hrelations, rfl⟩
  · rintro ⟨e, hread, hnesting, hrelations, rfl⟩
    rw [hread]
    exact ⟨rfl, e, rfl, hnesting, e.relations_condition ▸ hrelations, rfl⟩

/-- The tokens of an expression with a detached text after it. -/
theorem Spells.readAll_append {text : String} {e : Expression} (h : Spells ignoreCase text e)
    {rest : List Char} (hrest : Lexeme.Detached rest) :
    Lexeme.readAll ignoreCase false (text.toList ++ rest) =
      Lexeme.prepend e.phrase.tokens (Lexeme.readAll ignoreCase false rest) := by
  rw [Lexeme.readAll_append hrest (congrArg Prod.snd h), h, e.awaitsAfter]

/-- Two expressions with a connective between them. -/
def connected (c : Connective) (e₁ e₂ : String) : String := e₁ ++ " " ++ c.name ++ " " ++ e₂

/-- The expression in parentheses. -/
def parenthesised (e : String) : String := "(" ++ e ++ ")"

theorem Spells.readAll_connected {d₁ d₂ : Expression} (h₁ : Spells ignoreCase e₁ d₁)
    (h₂ : Spells ignoreCase e₂ d₂) (c : Connective) :
    Lexeme.readAll ignoreCase false (connected c e₁ e₂).toList =
      (d₁.phrase.tokens ++ .connective c :: d₂.phrase.tokens, []) := by
  have htext : (connected c e₁ e₂).toList =
      e₁.toList ++ ' ' :: (c.name.toList ++ ' ' :: e₂.toList) := by
    simp [connected, String.toList_append]
  rw [htext, h₁.readAll_append (Lexeme.detached_space _), Lexeme.readAll_space,
    Lexeme.readAll_connective, h₂]
  rfl

theorem Spells.parenthesised {text : String} {e : Expression} (h : Spells ignoreCase text e) :
    Spells ignoreCase (parenthesised text) (Operand.group e).alone := by
  have htext : (Grammar.parenthesised text).toList = '(' :: (text.toList ++ [')']) := by
    simp [Grammar.parenthesised, String.toList_append]
  have hclose : Lexeme.readAll ignoreCase false [')'] = ([.closeGroup], []) := by
    rw [Lexeme.readAll_closeGroup, Lexeme.readAll_blank rfl]
    rfl
  unfold Spells
  rw [htext, Lexeme.readAll_openGroup, h.readAll_append (Lexeme.detached_closeGroup _), hclose,
    phrase_alone, phrase_group]
  rfl

theorem Spells.tokens_ofText {text : String} {e : Expression} (h : Spells ignoreCase text e) :
    (TokenList.ofText text.toList ignoreCase).tokens = e.phrase.tokens ++ [.endOfInput] := by
  rw [TokenList.ofText_eq, h]

/-- A derivation of the tokens of two expressions with a connective between them gives the condition
of the text, if there is room for both. -/
theorem Spells.parse_connected {d₁ d₂ d : Expression} (h₁ : Spells ignoreCase e₁ d₁)
    (h₂ : Spells ignoreCase e₂ d₂) {c : Connective} (hd : Joins c d₁.phrase d₂.phrase d.phrase)
    (hnesting₁ : d₁.phrase.nesting ≤ maxNesting) (hnesting₂ : d₂.phrase.nesting ≤ maxNesting)
    (hrelations : d₁.phrase.relations + d₂.phrase.relations ≤ maxRelations) :
    Condition.parse ignoreCase (connected c e₁ e₂) = .ok (some d.phrase.condition) := by
  have hspells : Spells ignoreCase (connected c e₁ e₂) d := by
    rw [Spells, h₁.readAll_connected h₂, hd.tokens]
  refine parse_eq_some_iff_spells.mpr ⟨d, hspells, hd.nesting _ hnesting₁ hnesting₂, ?_, rfl⟩
  rw [d.relations_condition, hd.relations]
  exact hrelations

/-- **Two expressions in parentheses are read as the join of both.** -/
theorem parse_grouped (h₁ : Condition.parse ignoreCase e₁ = .ok (some c₁))
    (h₂ : Condition.parse ignoreCase e₂ = .ok (some c₂))
    (hrelations : c₁.relations + c₂.relations ≤ maxRelations)
    (hopen₁ : OpensAtMost (maxNesting - 1) (TokenList.ofText e₁.toList ignoreCase).tokens)
    (hopen₂ : OpensAtMost (maxNesting - 1) (TokenList.ofText e₂.toList ignoreCase).tokens)
    (c : Connective) :
    Condition.parse ignoreCase (connected c (parenthesised e₁) (parenthesised e₂)) =
      .ok (some (.join c c₁ c₂)) := by
  obtain ⟨d₁, hd₁, -, -, rfl⟩ := parse_eq_some_iff_spells.mp h₁
  obtain ⟨d₂, hd₂, -, -, rfl⟩ := parse_eq_some_iff_spells.mp h₂
  rw [hd₁.tokens_ofText] at hopen₁
  rw [hd₂.tokens_ofText] at hopen₂
  rw [d₁.relations_condition, d₂.relations_condition] at hrelations
  obtain ⟨d, hd⟩ := exists_grouped c d₁ d₂
  have hjoins : Joins c (Operand.group d₁).alone.phrase (Operand.group d₂).alone.phrase
      d.phrase := by
    rw [hd, phrase_alone, phrase_alone, phrase_group, phrase_group]
    exact joins_chain c _ _ [] []
  have hroom : ∀ d' : Expression, d'.phrase.nesting ≤ maxNesting - 1 →
      (Operand.group d').alone.phrase.nesting ≤ maxNesting := by
    intro d' hd'
    rw [phrase_alone, phrase_group, Phrase.group]
    exact Nat.succ_le_of_lt (Nat.lt_of_le_of_lt hd' (by decide))
  rw [hd₁.parenthesised.parse_connected hd₂.parenthesised hjoins
    (hroom d₁ (Expression.nesting_le hopen₁)) (hroom d₂ (Expression.nesting_le hopen₂))
    (by simpa [Phrase.group] using hrelations), hd]
  rfl

/-- **Expressions compose.** Two expressions in parentheses with a connective between them are read
as exactly the join of their conditions, if there is room for one more pair of parentheses and for
all their relations. Without parentheses, `or` between them gives a condition that holds when one of
theirs does, and `and` one that holds when both do, if every `or` in them stands in a group. -/
theorem parse_composed (h₁ : Condition.parse ignoreCase e₁ = .ok (some c₁))
    (h₂ : Condition.parse ignoreCase e₂ = .ok (some c₂))
    (hrelations : c₁.relations + c₂.relations ≤ maxRelations)
    (hopen₁ : OpensAtMost (maxNesting - 1) (TokenList.ofText e₁.toList ignoreCase).tokens)
    (hopen₂ : OpensAtMost (maxNesting - 1) (TokenList.ofText e₂.toList ignoreCase).tokens) :
    (∀ c : Connective,
      Condition.parse ignoreCase (connected c (parenthesised e₁) (parenthesised e₂)) =
        .ok (some (.join c c₁ c₂))) ∧
    (∃ d, Condition.parse ignoreCase (connected .or e₁ e₂) = .ok (some d) ∧
      ∀ fields, d.holds fields = (c₁.holds fields || c₂.holds fields)) ∧
    (OrsGrouped (TokenList.ofText e₁.toList ignoreCase).tokens →
      OrsGrouped (TokenList.ofText e₂.toList ignoreCase).tokens →
      ∃ d, Condition.parse ignoreCase (connected .and e₁ e₂) = .ok (some d) ∧
        ∀ fields, d.holds fields = (c₁.holds fields && c₂.holds fields)) := by
  refine ⟨parse_grouped h₁ h₂ hrelations hopen₁ hopen₂, ?_⟩
  obtain ⟨d₁, hd₁, hnesting₁, -, rfl⟩ := parse_eq_some_iff_spells.mp h₁
  obtain ⟨d₂, hd₂, hnesting₂, -, rfl⟩ := parse_eq_some_iff_spells.mp h₂
  rw [d₁.relations_condition, d₂.relations_condition] at hrelations
  constructor
  · obtain ⟨d, hd⟩ := exists_joins_or d₁ d₂
    exact ⟨_, hd₁.parse_connected hd₂ hd hnesting₁ hnesting₂ hrelations, hd.holds⟩
  · rw [hd₁.tokens_ofText, hd₂.tokens_ofText]
    intro hors₁ hors₂
    obtain ⟨_, hconj₁⟩ := Expression.eq_conjunction hors₁
    obtain ⟨_, hconj₂⟩ := Expression.eq_conjunction hors₂
    obtain ⟨d, hd⟩ := exists_joins_and hconj₁ hconj₂
    exact ⟨_, hd₁.parse_connected hd₂ hd hnesting₁ hnesting₂ hrelations, hd.holds⟩

/-- Both texts keep their `or`s in groups. Without parentheses the tree is not the join. -/
theorem parse_composed_three :
    let e₁ := "a 1 and (b 2 or c 3)"
    let e₂ := "d 4 and e ')'"
    let a := Condition.relation .eq "a" (.integer 1)
    let bc := Condition.join .or (.relation .eq "b" (.integer 2)) (.relation .eq "c" (.integer 3))
    let d := Condition.relation .eq "d" (.integer 4)
    let e := Condition.relation .eq "e" (.string ")")
    let c₁ := Condition.join .and a bc
    let c₂ := Condition.join .and d e
    Condition.parse false e₁ = .ok (some c₁) ∧ Condition.parse false e₂ = .ok (some c₂) ∧
    Condition.parse false (connected .and e₁ e₂) =
      .ok (some (.join .and (.join .and c₁ d) e)) ∧
    Condition.parse false (connected .and (parenthesised e₁) (parenthesised e₂)) =
        .ok (some (.join .and c₁ c₂)) ∧
    (∃ d, Condition.parse false (connected .or e₁ e₂) = .ok (some d) ∧
      ∀ fields, d.holds fields = (c₁.holds fields || c₂.holds fields)) ∧
    (∃ d, Condition.parse false (connected .and e₁ e₂) = .ok (some d) ∧
      ∀ fields, d.holds fields = (c₁.holds fields && c₂.holds fields)) := by
  intro e₁ e₂ a bc d e c₁ c₂
  have h₁ : Condition.parse false e₁ = .ok (some c₁) := by decide +kernel
  have h₂ : Condition.parse false e₂ = .ok (some c₂) := by decide +kernel
  have hrelations : c₁.relations + c₂.relations ≤ maxRelations := by decide
  have hopen₁ : OpensAtMost (maxNesting - 1) (TokenList.ofText e₁.toList false).tokens := by
    decide +kernel
  have hopen₂ : OpensAtMost (maxNesting - 1) (TokenList.ofText e₂.toList false).tokens := by
    decide +kernel
  have hors₁ : OrsGrouped (TokenList.ofText e₁.toList false).tokens := by decide +kernel
  have hors₂ : OrsGrouped (TokenList.ofText e₂.toList false).tokens := by decide +kernel
  have hcomposed := parse_composed h₁ h₂ hrelations hopen₁ hopen₂
  refine ⟨h₁, h₂, by decide +kernel, hcomposed.1 .and, hcomposed.2.1, hcomposed.2.2 hors₁ hors₂⟩

end Grammar

end RecordFilter
