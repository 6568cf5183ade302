import Mathlib
import RecordFilter.Proofs.Grammar.Derivation
import RecordFilter.Proofs.Lexing.Sequence
import RecordFilter.Proofs.Printing.Tokens

/-!
# The text of a condition

The text of a condition whose fields and literals can be written falls apart into the tokens it was
put together from, and these have the derivation that puts every pair of joined conditions in
parentheses. It opens as many parentheses at once as the tree has levels of connectives.

* `readAll_text`: the tokens of the text of a condition;
* `phrase_canonical`: what the derivation of the text derives;
* `Expression.writable`: what is read from tokens can be written again.
-/

namespace RecordFilter

/-! ## Tokens -/

namespace Condition

/-- All fields and literals can be written. -/
def Writable (ignoreCase : Bool) : Condition → Prop
  | .relation _ field literal => IsField ignoreCase field ∧ literal.Writable
  | .join _ l r => l.Writable ignoreCase ∧ r.Writable ignoreCase

/-- The tokens of the text of the condition. -/
def tokens : Condition → List Token
  | .relation c field literal => [.field field, .comparison c, .literal literal]
  | .join c l r => .openGroup :: (l.tokens ++ .connective c :: (r.tokens ++ [.closeGroup]))

theorem depth_pos : ∀ c : Condition, 0 < c.depth
  | .relation _ _ _ => Nat.one_pos
  | .join _ _ _ => Nat.lt_of_lt_of_le Nat.one_pos (Nat.le_add_right 1 _)

theorem toList_text_relation (c : Comparison) (field : String) (literal : Value)
    (rest : List Char) :
    (Condition.relation c field literal).text.toList ++ rest =
      field.toList ++ ' ' :: (c.name.toList ++ ' ' :: (literal.text.toList ++ rest)) := by
  simp [text, String.toList_append]

theorem toList_text_join (c : Connective) (l r : Condition) (rest : List Char) :
    (Condition.join c l r).text.toList ++ rest =
      '(' :: (l.text.toList ++
        ' ' :: (c.name.toList ++ ' ' :: (r.text.toList ++ ')' :: rest))) := by
  simp [text, String.toList_append]

end Condition

namespace Lexeme

variable {ignoreCase awaitsLiteral : Bool} {text rest : List Char}

theorem readAll_space : readAll ignoreCase awaitsLiteral (' ' :: text) =
    readAll ignoreCase awaitsLiteral text := readAll_congr rfl

theorem endsWord_space (text : List Char) : EndsWord (' ' :: text) := by
  rintro c ⟨⟩
  decide

theorem endsWord_closeGroup (text : List Char) : EndsWord (')' :: text) := by
  rintro c ⟨⟩
  decide

/-! ## Token by token -/

theorem readAll_openGroup : readAll ignoreCase awaitsLiteral ('(' :: rest) =
    prepend [.openGroup] (readAll ignoreCase false rest) :=
  readAll_of_read? (read?_openGroup rest) (toToken_symbol _ _ _) rfl

theorem readAll_closeGroup : readAll ignoreCase awaitsLiteral (')' :: rest) =
    prepend [.closeGroup] (readAll ignoreCase false rest) :=
  readAll_of_read? (read?_closeGroup rest) (toToken_symbol _ _ _) rfl

theorem readAll_connective (c : Connective) :
    readAll ignoreCase awaitsLiteral (c.name.toList ++ ' ' :: rest) =
      prepend [.connective c] (readAll ignoreCase false rest) := by
  rw [readAll_of_read? (read?_connective c (endsWord_space rest)) (toToken_connective c _ _) rfl,
    readAll_space]
  rfl

theorem readAll_comparison (c : Comparison) :
    readAll ignoreCase awaitsLiteral (c.name.toList ++ ' ' :: rest) =
      prepend [.comparison c] (readAll ignoreCase true rest) := by
  rw [readAll_of_read? (read?_comparison c (endsWord_space rest)) (toToken_comparison c _ _) rfl,
    readAll_space]
  rfl

theorem readAll_field {field : String} (h : IsField ignoreCase field) :
    readAll ignoreCase false (field.toList ++ ' ' :: rest) =
      prepend [.field field] (readAll ignoreCase true rest) := by
  obtain ⟨hread, htoken⟩ := read?_field h (endsWord_space rest)
  rw [readAll_of_read? hread htoken rfl, readAll_space]
  rfl

theorem readAll_literal {v : Value} (hv : v.Writable) (hrest : EndsWord rest) :
    readAll ignoreCase awaitsLiteral (v.text.toList ++ rest) =
      prepend [.literal v] (readAll ignoreCase false rest) := by
  obtain ⟨l, hread, htoken⟩ := read?_literal hv hrest
  rw [readAll_of_read? hread (htoken _ _) rfl]
  rfl

/-- **The tokens of the text of a condition.** -/
theorem readAll_text : ∀ {c : Condition}, c.Writable ignoreCase → ∀ {rest : List Char},
    EndsWord rest → readAll ignoreCase false (c.text.toList ++ rest) =
      prepend c.tokens (readAll ignoreCase false rest)
  | .relation c field literal, ⟨hfield, hliteral⟩, rest, hrest => by
    rw [Condition.toList_text_relation, readAll_field hfield, readAll_comparison,
      readAll_literal hliteral hrest, prepend_prepend, prepend_prepend]
    rfl
  | .join c l r, ⟨hl, hr⟩, rest, hrest => by
    rw [Condition.toList_text_join, readAll_openGroup, readAll_text hl (endsWord_space _),
      readAll_space, readAll_connective, readAll_text hr (endsWord_closeGroup _),
      readAll_closeGroup]
    simp [prepend_prepend, Condition.tokens]

end Lexeme

/-! ## Derivations -/

namespace Grammar

/-- The derivation of the text of a condition. -/
def canonical : Condition → Operand
  | .relation c field literal => .relation field (some c) literal
  | .join .and l r => .group (.chain (.chain (canonical l) [canonical r]) [])
  | .join .or l r => .group (.chain (.chain (canonical l) []) [.chain (canonical r) []])

theorem phrase_canonical_join (c : Connective) (l r : Condition) :
    (canonical (.join c l r)).phrase =
      (Phrase.join c (canonical l).phrase (canonical r).phrase).group := by
  cases c <;> simp [canonical]

theorem phrase_canonical : ∀ c : Condition,
    (canonical c).phrase = ⟨c.tokens, c.depth - 1, c.relations, c⟩
  | .relation _ _ _ => by
    rw [canonical, phrase_relation]
    rfl
  | .join c l r => by
    have hl := l.depth_pos
    have hr := r.depth_pos
    have hnesting : max (l.depth - 1) (r.depth - 1) + 1 = 1 + max l.depth r.depth - 1 := by omega
    rw [phrase_canonical_join, phrase_canonical l, phrase_canonical r]
    simp [Phrase.group, Phrase.join, Condition.tokens, Condition.depth, Condition.relations,
      hnesting]

/-! ## What is read can be written -/

theorem Expression.relations_condition (e : Expression) :
    e.phrase.condition.relations = e.phrase.relations := by
  have hinherited : Inherited fun p => p.condition.relations = p.relations := by
    refine ⟨fun _ _ _ => rfl, fun _ hp => hp, fun c p q hp hq => ?_⟩
    simp only [Phrase.join, Condition.relations, hp, hq]
  exact e.inherits hinherited

theorem Expression.writable {ignoreCase : Bool} (e : Expression)
    (h : ∀ t ∈ e.phrase.tokens, t.Writable ignoreCase) :
    e.phrase.condition.Writable ignoreCase := by
  have hinherited : Inherited fun p =>
      (∀ t ∈ p.tokens, t.Writable ignoreCase) → p.condition.Writable ignoreCase := by
    refine ⟨?_, ?_, ?_⟩
    · intro field comparison literal ht
      exact ⟨ht (.field field) (by simp [Phrase.relation]),
        ht (.literal literal) (by simp [Phrase.relation])⟩
    · intro p hp ht
      exact hp fun t hmem => ht t (by simp [Phrase.group, hmem])
    · intro c p q hp hq ht
      exact ⟨hp fun t hmem => ht t (by simp [Phrase.join, hmem]),
        hq fun t hmem => ht t (by simp [Phrase.join, hmem])⟩
  exact e.inherits hinherited h

end Grammar

end RecordFilter
