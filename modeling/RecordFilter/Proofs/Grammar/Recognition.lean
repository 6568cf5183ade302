import Mathlib
import RecordFilter.Proofs.Grammar.Derivation
import RecordFilter.Proofs.Lexing.Sequence

/-!
# The readers recognise the grammar

A reader is **sound** for a kind of derivation when all that it takes off the front of the tokens
is derived by one of them, and **complete** for a derivation when it takes the tokens of this
derivation off the front of every sequence in which nothing continues them. The limits are part of
both: a derivation that is found keeps to them, and one that keeps to them is found.

* `chain_sound`, `chain_complete`: the reader of chains, from the reader of their items;
* `expression_sound`, `expression_complete`: the reader of expressions, for each number of levels;
* `parse_eq_some_iff_derivation`: a text has a condition exactly when its tokens have a derivation
  within the limits, which is the only one they have, and the condition is what it means.
-/

namespace RecordFilter.Grammar

open RecordFilter.Condition

/-- What the reader takes off is derived by one of the derivations, with less than `depth`
parentheses open at once, and the limit on relations is kept. -/
def Sound {α : Type} (r : Reader) (phrase : α → Phrase) (depth : Nat) : Prop :=
  ∀ (p q : Position) (c : Condition), r p = .ok (c, q) →
    ∃ a, p.rest = (phrase a).tokens ++ q.rest ∧ q.relations = p.relations + (phrase a).relations ∧
      (phrase a).nesting < depth ∧ (phrase a).condition = c ∧ q.relations ≤ maxRelations

/-- The reader takes the tokens of the phrase off the front, if nothing continues them and there
is room for its relations. -/
def Complete (r : Reader) (ends : Token → Prop) (p : Phrase) : Prop :=
  ∀ (rest : List Token) (n : Nat), ends (upcoming rest) → n + p.relations ≤ maxRelations →
    r ⟨p.tokens ++ rest, n⟩ = .ok (p.condition, ⟨rest, n + p.relations⟩)

/-! ## Chains -/

section Chains
variable {α : Type} {phrase : α → Phrase} {item : Reader} {ends ends' : Token → Prop}
  {c : Connective} {depth : Nat}

theorem chainAfter_stop {rest : List Token} (h : upcoming rest ≠ .connective c) (bound : Nat)
    (left : Condition) (n : Nat) :
    chainAfter c item bound left ⟨rest, n⟩ = .ok (left, ⟨rest, n⟩) := by
  cases bound with
  | zero => rfl
  | succ bound =>
    rw [chainAfter]
    split
    · next c' ts heq =>
      rw [show rest = _ from heq] at h
      exact if_neg fun hc => h (congrArg Token.connective hc)
    · rfl

theorem chainAfter_connective (bound : Nat) (left : Condition) (ts : List Token) (n : Nat) :
    chainAfter c item (bound + 1) left ⟨.connective c :: ts, n⟩ =
      match item ⟨ts, n⟩ with
      | .error e => .error e
      | .ok (right, q) => chainAfter c item bound (.join c left right) q := by
  rw [chainAfter]
  exact if_pos rfl

theorem chainAfter_sound (hitem : Sound item phrase depth) : ∀ (bound : Nat) (left : Phrase)
    (p q : Position) (d : Condition), left.nesting < depth → p.relations ≤ maxRelations →
      chainAfter c item bound left.condition p = .ok (d, q) →
      ∃ more : List α, p.rest = Phrase.tail c (more.map phrase) ++ q.rest ∧
        q.relations = p.relations + ((more.map phrase).map Phrase.relations).sum ∧
        (Phrase.chain c left (more.map phrase)).nesting < depth ∧
        (Phrase.chain c left (more.map phrase)).condition = d ∧ q.relations ≤ maxRelations := by
  -- The phrase of what has been read of the chain is general: it grows with every item.
  intro bound
  induction bound with
  | zero =>
    intro left p q d hleft hp h
    cases h
    exact ⟨[], rfl, rfl, hleft, rfl, hp⟩
  | succ bound ih =>
    intro left p q d hleft hp h
    by_cases hc : upcoming p.rest = .connective c
    · obtain ⟨ts, hts⟩ : ∃ ts, p.rest = .connective c :: ts := by
        cases hr : p.rest with
        | nil => rw [hr] at hc; cases hc
        | cons t ts => rw [hr] at hc; exact ⟨ts, by rw [show t = _ from hc]⟩
      rw [show p = ⟨.connective c :: ts, p.relations⟩ by rw [← hts],
        chainAfter_connective] at h
      cases hi : item ⟨ts, p.relations⟩ with
      | error e => rw [hi] at h; cases h
      | ok res =>
        obtain ⟨right, q'⟩ := res
        rw [hi] at h
        obtain ⟨a, hrest, hrel, hnest, rfl, hlim⟩ := hitem _ _ _ hi
        obtain ⟨more, hrest', hrel', hnest', hcond, hlim'⟩ :=
          ih (.join c left (phrase a)) q' q d (Nat.max_lt.mpr ⟨hleft, hnest⟩) hlim h
        refine ⟨a :: more, ?_, ?_, hnest', hcond, hlim'⟩
        · rw [hts, show ts = _ from hrest, hrest']
          simp
        · rw [hrel', hrel]
          simp only [List.map_cons, List.sum_cons]
          omega
    · rw [show p = ⟨p.rest, p.relations⟩ from rfl, chainAfter_stop hc] at h
      cases h
      exact ⟨[], rfl, rfl, hleft, rfl, hp⟩

theorem chain_sound (hitem : Sound item phrase depth) {p q : Position} {d : Condition}
    (h : chain c item p = .ok (d, q)) :
    ∃ (first : α) (more : List α), let ph := Phrase.chain c (phrase first) (more.map phrase)
      p.rest = ph.tokens ++ q.rest ∧ q.relations = p.relations + ph.relations ∧
        ph.nesting < depth ∧ ph.condition = d ∧ q.relations ≤ maxRelations := by
  unfold chain at h
  cases hi : item p with
  | error e => rw [hi] at h; cases h
  | ok res =>
    obtain ⟨left, p'⟩ := res
    rw [hi] at h
    obtain ⟨first, hrest, hrel, hnest, rfl, hlim⟩ := hitem _ _ _ hi
    obtain ⟨more, hrest', hrel', hnest', hcond, hlim'⟩ :=
      chainAfter_sound hitem _ _ _ _ _ hnest hlim h
    refine ⟨first, more, ?_, ?_, hnest', hcond, hlim'⟩
    · rw [hrest, hrest', Phrase.tokens_chain, List.append_assoc]
    · rw [hrel', hrel, Phrase.relations_chain, Nat.add_assoc]

theorem chainAfter_complete (hc : ends (.connective c)) (hends : ∀ t, ends' t → ends t)
    (hstop : ∀ t, ends' t → t ≠ .connective c) {rest : List Token} (hrest : ends' (upcoming rest)) :
    ∀ (more : List Phrase) (bound n : Nat) (left : Phrase), more.length ≤ bound →
      (∀ p ∈ more, Complete item ends p) →
      n + (more.map Phrase.relations).sum ≤ maxRelations →
      chainAfter c item bound left.condition ⟨Phrase.tail c more ++ rest, n⟩ =
        .ok ((Phrase.chain c left more).condition,
          ⟨rest, n + (more.map Phrase.relations).sum⟩)
  | [], bound, n, left, _, _, _ => chainAfter_stop (hstop _ hrest) bound _ n
  | p :: more, 0, n, left, hbound, _, _ => absurd hbound (Nat.not_succ_le_zero _)
  | p :: more, bound + 1, n, left, hbound, hmore, hn => by
    rw [List.map_cons, List.sum_cons] at hn
    have hitem := hmore p List.mem_cons_self (Phrase.tail c more ++ rest) n
      (ends_upcoming_tail hc (hends _ hrest) more) (by omega)
    rw [Phrase.tail_cons, List.cons_append, List.append_assoc, chainAfter_connective, hitem]
    have hrec := chainAfter_complete hc hends hstop hrest more bound (n + p.relations)
      (.join c left p) (Nat.le_of_succ_le_succ hbound)
      (fun x hx => hmore x (List.mem_cons_of_mem _ hx)) (by omega)
    rw [List.map_cons, List.sum_cons, ← Nat.add_assoc]
    exact hrec

/-- The reader of chains is complete when the reader of their items is. -/
theorem chain_complete (hc : ends (.connective c)) (hends : ∀ t, ends' t → ends t)
    (hstop : ∀ t, ends' t → t ≠ .connective c) {first : Phrase} {more : List Phrase}
    (hfirst : Complete item ends first) (hmore : ∀ p ∈ more, Complete item ends p) :
    Complete (chain c item) ends' (Phrase.chain c first more) := by
  intro rest n hrest hn
  rw [Phrase.relations_chain] at hn ⊢
  have hitem := hfirst (Phrase.tail c more ++ rest) n
    (ends_upcoming_tail hc (hends _ hrest) more) (by omega)
  have hlen : more.length ≤ (Phrase.tail c more ++ rest).length := by
    rw [List.length_append]
    exact Nat.le_add_right_of_le (Phrase.length_le_tail c more)
  rw [Phrase.tokens_chain, List.append_assoc, chain, hitem, ← Nat.add_assoc]
  exact chainAfter_complete hc hends hstop hrest more _ _ first hlen hmore (by omega)

end Chains

/-! ## Operands -/

/-- Reads the literal of a relation, after its field and comparison. -/
def literalOf (field : String) (comparison : Comparison) : Reader := fun p =>
  match p.rest with
  | .literal v :: ts => .ok (.relation comparison field v, ⟨ts, p.relations + 1⟩)
  | ts => .error (.missingValue field (upcoming ts))

theorem relationOf_full {n : Nat} (h : maxRelations ≤ n) (field : String) (ts : List Token) :
    relationOf field ⟨ts, n⟩ = .error .tooManyRelations := if_neg (Nat.not_lt.mpr h)

theorem relationOf_comparison {n : Nat} (h : n < maxRelations) (field : String) (c : Comparison)
    (ts : List Token) :
    relationOf field ⟨.comparison c :: ts, n⟩ = literalOf field c ⟨ts, n⟩ := if_pos h

theorem relationOf_implicit {n : Nat} (h : n < maxRelations) (field : String) {ts : List Token}
    (hts : ∀ c, upcoming ts ≠ .comparison c) :
    relationOf field ⟨ts, n⟩ = literalOf field .eq ⟨ts, n⟩ := by
  refine (if_pos h).trans ?_
  cases ts with
  | nil => rfl
  | cons t ts =>
    cases t with
    | comparison c => exact absurd rfl (hts c)
    | _ => rfl

theorem literalOf_eq_ok {field : String} {comparison : Comparison} {p q : Position} {c : Condition}
    (h : literalOf field comparison p = .ok (c, q)) :
    ∃ v, p.rest = .literal v :: q.rest ∧ q.relations = p.relations + 1 ∧
      .relation comparison field v = c := by
  unfold literalOf at h
  split at h
  · next v ts hrest =>
    cases h
    exact ⟨v, hrest, rfl, rfl⟩
  · cases h

theorem relationOf_sound {field : String} {p q : Position} {c : Condition}
    (h : relationOf field p = .ok (c, q)) :
    ∃ comparison literal, .field field :: p.rest =
        (Phrase.relation field comparison literal).tokens ++ q.rest ∧
      q.relations = p.relations + 1 ∧ .relation (comparison.getD .eq) field literal = c ∧
      q.relations ≤ maxRelations := by
  obtain ⟨ts, n⟩ := p
  rcases Nat.lt_or_ge n maxRelations with hn | hn
  · by_cases hts : ∃ cmp, upcoming ts = .comparison cmp
    · obtain ⟨cmp, hts⟩ := hts
      cases ts with
      | nil => cases hts
      | cons t ts =>
        rw [show t = _ from hts, relationOf_comparison hn] at h
        obtain ⟨v, hrest, hrel, hc⟩ := literalOf_eq_ok h
        refine ⟨some cmp, v, ?_, hrel, hc, by rw [hrel]; exact hn⟩
        rw [show t = _ from hts, show ts = _ from hrest]
        rfl
    · rw [relationOf_implicit hn field (not_exists.mp hts)] at h
      obtain ⟨v, hrest, hrel, hc⟩ := literalOf_eq_ok h
      refine ⟨none, v, ?_, hrel, hc, by rw [hrel]; exact hn⟩
      rw [show ts = _ from hrest]
      rfl
  · rw [relationOf_full hn] at h
    cases h

theorem operand_sound {group : Reader} {depth : Nat}
    (hgroup : Sound group Expression.phrase depth) :
    Sound (operand group) Operand.phrase (depth + 1) := by
  intro p q c h
  unfold operand at h
  split at h
  · next ts hp =>
    cases hg : group ⟨ts, p.relations⟩ with
    | error e => rw [hg] at h; cases h
    | ok res =>
      obtain ⟨d, q'⟩ := res
      rw [hg] at h
      obtain ⟨inner, hrest, hrel, hnest, rfl, hlim⟩ := hgroup _ _ _ hg
      dsimp only at h
      split at h
      · next ts' hq' =>
        cases h
        refine ⟨.group inner, ?_, ?_, ?_, ?_, hlim⟩
        · rw [hp, show ts = _ from hrest, hq', phrase_group]
          simp [Phrase.group]
        · rw [phrase_group]; exact hrel
        · rw [phrase_group]; exact Nat.succ_lt_succ hnest
        · rw [phrase_group]; rfl
      · cases h
  · next name ts hp =>
    obtain ⟨comparison, literal, hrest, hrel, hc, hlim⟩ := relationOf_sound h
    refine ⟨.relation name comparison literal, ?_, ?_, ?_, ?_, hlim⟩
    · rw [hp, phrase_relation]; exact hrest
    · rw [phrase_relation]; exact hrel
    · rw [phrase_relation]; exact Nat.succ_pos depth
    · rw [phrase_relation]; exact hc
  · cases h

theorem relation_complete (group : Reader) (field : String) (comparison : Option Comparison)
    (literal : Value) :
    Complete (operand group) anyToken (.relation field comparison literal) := by
  intro rest n _ hn
  have hn : n < maxRelations := hn
  cases comparison with
  | some c => exact relationOf_comparison hn field c (.literal literal :: rest)
  | none =>
    refine (relationOf_implicit hn field ?_).trans rfl
    simp [upcoming]

theorem group_complete {group : Reader} {inner : Phrase}
    (hgroup : Complete group endsExpression inner) :
    Complete (operand group) anyToken inner.group := by
  intro rest n _ hn
  have hinner := hgroup (.closeGroup :: rest) n (by simp [endsExpression, upcoming]) hn
  simp only [Phrase.group, List.cons_append, List.append_assoc, List.nil_append, operand, hinner]

/-! ## Expressions -/

section Groups
variable {group : Reader} {depth levels : Nat}

theorem conjunction_sound (hgroup : Sound group Expression.phrase depth) :
    Sound (conjunction group) Conjunction.phrase (depth + 1) := by
  intro p q c h
  obtain ⟨first, more, hfound⟩ := chain_sound (operand_sound hgroup) h
  exact ⟨.chain first more, by rw [phrase_conjunction]; exact hfound⟩

theorem disjunction_sound (hgroup : Sound group Expression.phrase depth) :
    Sound (disjunction group) Expression.phrase (depth + 1) := by
  intro p q c h
  obtain ⟨first, more, hfound⟩ := chain_sound (conjunction_sound hgroup) h
  exact ⟨.chain first more, by rw [phrase_expression]; exact hfound⟩

theorem operand_complete
    (hgroup : ∀ e : Expression, e.phrase.nesting < levels →
      Complete group endsExpression e.phrase) (o : Operand) (ho : o.phrase.nesting ≤ levels) :
    Complete (operand group) anyToken o.phrase := by
  cases o with
  | group inner =>
    rw [phrase_group] at ho ⊢
    exact group_complete (hgroup inner ho)
  | relation field comparison literal =>
    rw [phrase_relation]
    exact relation_complete group field comparison literal

theorem conjunction_complete
    (hgroup : ∀ e : Expression, e.phrase.nesting < levels →
      Complete group endsExpression e.phrase) (c : Conjunction) (hc : c.phrase.nesting ≤ levels) :
    Complete (conjunction group) endsConjunction c.phrase := by
  obtain ⟨first, more⟩ := c
  rw [phrase_conjunction, Phrase.nesting_chain_le, List.forall_mem_map] at hc
  rw [phrase_conjunction]
  exact chain_complete trivial (fun _ _ => trivial) (fun _ ht => ht)
    (operand_complete hgroup first hc.1)
    (List.forall_mem_map.mpr fun o hmem => operand_complete hgroup o (hc.2 o hmem))

/-- The readers of the three symbols are complete for what is nested at most `levels` deep, when
the reader of groups is for what is nested less. -/
theorem disjunction_complete
    (hgroup : ∀ e : Expression, e.phrase.nesting < levels →
      Complete group endsExpression e.phrase) (e : Expression) (he : e.phrase.nesting ≤ levels) :
    Complete (disjunction group) endsExpression e.phrase := by
  obtain ⟨first, more⟩ := e
  rw [phrase_expression, Phrase.nesting_chain_le, List.forall_mem_map] at he
  rw [phrase_expression]
  exact chain_complete (by simp [endsConjunction]) (fun _ ht => ht .and) (fun _ ht => ht .or)
    (conjunction_complete hgroup first he.1)
    (List.forall_mem_map.mpr fun c hmem => conjunction_complete hgroup c (he.2 c hmem))

end Groups

theorem expression_sound : ∀ levels : Nat,
    Sound (expression levels) Expression.phrase (levels + 1)
  | 0 => disjunction_sound fun _ _ _ h => nomatch h
  | levels + 1 => disjunction_sound (expression_sound levels)

theorem expression_complete : ∀ (levels : Nat) (e : Expression), e.phrase.nesting ≤ levels →
    Complete (expression levels) endsExpression e.phrase
  | 0 => disjunction_complete fun _ h => absurd h (Nat.not_lt_zero _)
  | levels + 1 => disjunction_complete fun e h =>
    expression_complete levels e (Nat.le_of_lt_succ h)

/-! ## Texts -/

theorem upcoming_append_ne_end {ts : List Token} (hne : ts ≠ []) (hend : .endOfInput ∉ ts)
    (rest : List Token) : upcoming (ts ++ rest) ≠ .endOfInput := by
  obtain ⟨t, ts, rfl⟩ := List.exists_cons_of_ne_nil hne
  exact fun h => hend (List.mem_cons.mpr (Or.inl (Eq.symm h)))

theorem ofTokens_eq_some_iff {ts : List Token} (hne : ts ≠ []) (hend : .endOfInput ∉ ts)
    (c : Condition) :
    ofTokens (ts ++ [.endOfInput]) = .ok (some c) ↔
      ∃ e : Expression, e.phrase.tokens = ts ∧ e.phrase.nesting ≤ maxNesting ∧
        e.phrase.relations ≤ maxRelations ∧ e.phrase.condition = c := by
  rw [ofTokens, if_neg (upcoming_append_ne_end hne hend _)]
  constructor
  · intro h
    cases hexp : expression maxNesting ⟨ts ++ [.endOfInput], 0⟩ with
    | error e => rw [hexp] at h; cases h
    | ok res =>
      obtain ⟨d, q⟩ := res
      rw [hexp] at h
      obtain ⟨e, hrest, hrel, hnest, hcond, hlim⟩ := expression_sound maxNesting _ _ _ hexp
      dsimp only at h hrest hrel
      split at h
      · next hq =>
        cases h
        rw [hrel, Nat.zero_add] at hlim
        refine ⟨e, ?_, Nat.le_of_lt_succ hnest, hlim, hcond⟩
        cases hr : q.rest with
        | nil =>
          rw [hr, List.append_nil] at hrest
          exact absurd (hrest ▸ List.mem_append_right _ List.mem_cons_self) e.endOfInput_not_mem
        | cons t rest =>
          rw [hr] at hq hrest
          rw [show t = _ from hq] at hrest
          exact ((List.append_cons_inj_of_notMem hend List.not_mem_nil).mp hrest).1.symm
      · cases h
  · rintro ⟨e, rfl, hnest, hrel, rfl⟩
    rw [expression_complete maxNesting e hnest [.endOfInput] 0 (by simp [endsExpression, upcoming])
      (by omega)]
    exact if_pos rfl

/-- A text spells a condition when it falls apart into the tokens of an expression within the limits
that means it. -/
theorem parse_eq_some_iff {ignoreCase : Bool} {text : String} {c : Condition} :
    Condition.parse ignoreCase text = .ok (some c) ↔
      (Lexeme.readAll ignoreCase false text.toList).2 = [] ∧
      ∃ e : Expression, e.phrase.tokens = (Lexeme.readAll ignoreCase false text.toList).1 ∧
        e.phrase.nesting ≤ maxNesting ∧ e.phrase.relations ≤ maxRelations ∧
        e.phrase.condition = c := by
  have hend : .endOfInput ∉ (Lexeme.readAll ignoreCase false text.toList).1 :=
    Lexeme.endOfInput_not_mem_readAll _ _ _
  rw [Condition.parse, TokenList.ofText_eq]
  generalize Lexeme.readAll ignoreCase false text.toList = read at hend
  obtain ⟨ts, rest⟩ := read
  cases rest with
  | cons d ds => simp [StrayChar.at]
  | nil =>
    by_cases hts : ts = []
    · subst hts
      constructor
      · intro h
        cases h
      · rintro ⟨-, e, he, -⟩
        exact absurd he e.tokens_ne_nil
    · refine (ofTokens_eq_some_iff hts hend c).trans ?_
      exact ⟨fun h => ⟨rfl, h⟩, fun h => h.2⟩

/-- **Exactly the expressions within the limits have a condition.** If a text falls apart into
tokens without a stray character, it has the condition `c` just when the grammar derives its tokens
with at most `maxNesting` parentheses open at once and at most `maxRelations` relations, and the
derivation means `c`. There is no other derivation of the tokens, not even beyond the limits. -/
theorem parse_eq_some_iff_derivation {ignoreCase : Bool} {text : String} {ts : List Token}
    (htext : TokenList.ofText text.toList ignoreCase = ⟨ts ++ [.endOfInput], none⟩)
    (hne : ts ≠ []) :
    (∀ c, Condition.parse ignoreCase text = .ok (some c) ↔
      ∃ e : Expression, e.phrase.tokens = ts ∧ e.phrase.nesting ≤ maxNesting ∧
        e.phrase.relations ≤ maxRelations ∧ e.phrase.condition = c) ∧
      ∀ e e' : Expression, e.phrase.tokens = ts → e'.phrase.tokens = ts → e = e' := by
  have hend : .endOfInput ∉ ts := TokenList.endOfInput_not_mem (congrArg TokenList.tokens htext)
  refine ⟨fun c => ?_, fun e e' he he' => unambiguous (he.trans he'.symm)⟩
  rw [Condition.parse, htext]
  exact ofTokens_eq_some_iff hne hend c

/-- The tokens of `a 1 or (b>=x)`. -/
def disjunctionTokens : List Token :=
  [.field "a", .literal (.integer 1), .connective .or, .openGroup, .field "b", .comparison .geq,
    .literal (.string "x"), .closeGroup]

theorem derivation_of_disjunction :
    TokenList.ofText "a 1 or (b>=x)".toList false = ⟨disjunctionTokens ++ [.endOfInput], none⟩ ∧
      disjunctionTokens ≠ [] ∧ ∃ e : Expression, e.phrase.tokens = disjunctionTokens ∧
        e.phrase.nesting ≤ maxNesting ∧ e.phrase.relations ≤ maxRelations ∧ e.phrase.condition =
          .join .or (.relation .eq "a" (.integer 1)) (.relation .geq "b" (.string "x")) := by
  have htext : TokenList.ofText "a 1 or (b>=x)".toList false =
      ⟨disjunctionTokens ++ [.endOfInput], none⟩ := rfl
  have hne : disjunctionTokens ≠ [] := by decide
  exact ⟨htext, hne, ((parse_eq_some_iff_derivation htext hne).1 _).mp (by decide +kernel)⟩

end RecordFilter.Grammar
