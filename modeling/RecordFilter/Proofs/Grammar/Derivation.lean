import Mathlib
import RecordFilter.Condition.Parser

/-!
# The grammar of expressions

The derivations of the grammar

* `expression := conjunction (or conjunction)*`,
* `conjunction := operand (and operand)*`,
* `operand := ( expression ) | field [comparison] literal`,

as data, one type for each symbol on the left. What a derivation derives is its **phrase**: the
tokens, the most parentheses open at once, the number of relations, and the condition meant. Chains
group to the left, a group means what stands in it, and a missing comparison is `eq`.

* `phrase_expression`, `phrase_conjunction`: the phrase of a chain is the chain of the phrases;
* `Expression.determined`: a derivation is determined by tokens that begin with its own, as long as
  what follows cannot continue it;
* `unambiguous`: two derivations of the same tokens are the same;
* `Expression.inherits`: the induction on derivations for a property of phrases.
-/

namespace RecordFilter.Grammar

open RecordFilter.Condition (upcoming)

/-! ## Phrases -/

/-- A stretch of an expression and what it comes to. -/
structure Phrase where
  tokens : List Token
  /-- The most parentheses open at once. -/
  nesting : Nat
  relations : Nat
  condition : Condition

namespace Phrase

/-- A field, a comparison or none, and a literal. -/
def relation (field : String) (comparison : Option Comparison) (literal : Value) : Phrase where
  tokens := .field field :: ((comparison.map Token.comparison).toList ++ [.literal literal])
  nesting := 0
  relations := 1
  condition := .relation (comparison.getD .eq) field literal

/-- A phrase in parentheses. -/
def group (p : Phrase) : Phrase where
  tokens := .openGroup :: (p.tokens ++ [.closeGroup])
  nesting := p.nesting + 1
  relations := p.relations
  condition := p.condition

/-- Two phrases with a connective between them. -/
def join (c : Connective) (p q : Phrase) : Phrase where
  tokens := p.tokens ++ .connective c :: q.tokens
  nesting := max p.nesting q.nesting
  relations := p.relations + q.relations
  condition := .join c p.condition q.condition

/-- One or more phrases with connectives between them; they are joined from the left. -/
def chain (c : Connective) (first : Phrase) (more : List Phrase) : Phrase :=
  more.foldl (join c) first

/-- The tokens of a chain after its first phrase. -/
def tail (c : Connective) (more : List Phrase) : List Token :=
  more.flatMap fun p => .connective c :: p.tokens

@[simp] theorem chain_nil (c : Connective) (first : Phrase) : chain c first [] = first := rfl

@[simp] theorem chain_cons (c : Connective) (first p : Phrase) (more : List Phrase) :
    chain c first (p :: more) = chain c (join c first p) more := rfl

@[simp] theorem tail_nil (c : Connective) : tail c [] = [] := rfl

@[simp] theorem tail_cons (c : Connective) (p : Phrase) (more : List Phrase) :
    tail c (p :: more) = .connective c :: (p.tokens ++ tail c more) := rfl

theorem length_le_tail (c : Connective) : ∀ more : List Phrase, more.length ≤ (tail c more).length
  | [] => Nat.le_refl 0
  | p :: more => by
    have := length_le_tail c more
    simp only [tail_cons, List.length_cons, List.length_append]
    omega

theorem tokens_chain (c : Connective) : ∀ (more : List Phrase) (first : Phrase),
    (chain c first more).tokens = first.tokens ++ tail c more
  | [], first => by simp
  | p :: more, first => by
    rw [chain_cons, tokens_chain c more, tail_cons]
    simp [join]

theorem relations_chain (c : Connective) : ∀ (more : List Phrase) (first : Phrase),
    (chain c first more).relations = first.relations + (more.map relations).sum
  | [], first => by simp
  | p :: more, first => by
    rw [chain_cons, relations_chain c more, List.map_cons, List.sum_cons, ← Nat.add_assoc]
    rfl

theorem nesting_chain_le (c : Connective) (n : Nat) : ∀ (more : List Phrase) (first : Phrase),
    (chain c first more).nesting ≤ n ↔ first.nesting ≤ n ∧ ∀ p ∈ more, p.nesting ≤ n
  | [], first => by simp
  | p :: more, first => by
    rw [chain_cons, nesting_chain_le c n more, List.forall_mem_cons]
    simp only [join, Nat.max_le, and_assoc]

theorem chain_append (c : Connective) (first : Phrase) (more last : List Phrase) :
    chain c first (more ++ last) = chain c (chain c first more) last := List.foldl_append

end Phrase

/-! ## Derivations -/

mutual

/-- A derivation from `expression := conjunction (or conjunction)*`. -/
inductive Expression where
  | chain (first : Conjunction) (more : List Conjunction)

/-- A derivation from `conjunction := operand (and operand)*`. -/
inductive Conjunction where
  | chain (first : Operand) (more : List Operand)

/-- A derivation from `operand := ( expression ) | field [comparison] literal`. -/
inductive Operand where
  | group (inner : Expression)
  | relation (field : String) (comparison : Option Comparison) (literal : Value)

end

mutual

/-- What the expression derives. -/
def Expression.phrase : Expression → Phrase
  | .chain first more => .chain .or first.phrase (more.map Conjunction.phrase)

/-- What the conjunction derives. -/
def Conjunction.phrase : Conjunction → Phrase
  | .chain first more => .chain .and first.phrase (more.map Operand.phrase)

/-- What the operand derives. -/
def Operand.phrase : Operand → Phrase
  | .group inner => inner.phrase.group
  | .relation field comparison literal => .relation field comparison literal

end

@[simp] theorem phrase_expression (first : Conjunction) (more : List Conjunction) :
    (Expression.chain first more).phrase =
      .chain .or first.phrase (more.map Conjunction.phrase) := by
  rw [Expression.phrase]

@[simp] theorem phrase_conjunction (first : Operand) (more : List Operand) :
    (Conjunction.chain first more).phrase =
      .chain .and first.phrase (more.map Operand.phrase) := by
  rw [Conjunction.phrase]

@[simp] theorem phrase_group (inner : Expression) :
    (Operand.group inner).phrase = inner.phrase.group := by
  rw [Operand.phrase]

@[simp] theorem phrase_relation (field : String) (comparison : Option Comparison)
    (literal : Value) :
    (Operand.relation field comparison literal).phrase = .relation field comparison literal := by
  rw [Operand.phrase]

/-- An operand on its own is an expression. -/
def Operand.alone (o : Operand) : Expression := .chain (.chain o []) []

@[simp] theorem phrase_alone (o : Operand) : o.alone.phrase = o.phrase := by
  simp [Operand.alone]

/-! ## Unambiguity -/

/-- The token may follow an operand in any case. -/
def anyToken (_ : Token) : Prop := True

/-- The token does not continue a conjunction. -/
def endsConjunction (t : Token) : Prop := t ≠ .connective .and

/-- The token does not continue an expression. -/
def endsExpression (t : Token) : Prop := ∀ c, t ≠ .connective c

/-- Tokens that begin with those of `a` begin with those of no other derivation, if what follows
cannot continue it. -/
def Determined {α : Type} (phrase : α → Phrase) (ends : Token → Prop) (a : α) : Prop :=
  ∀ (b : α) (r s : List Token), ends (upcoming r) → ends (upcoming s) →
    (phrase a).tokens ++ r = (phrase b).tokens ++ s → a = b ∧ r = s

section Chains
variable {α : Type} {phrase : α → Phrase} {ends ends' : Token → Prop} {c : Connective}

theorem ends_upcoming_tail (hc : ends (.connective c)) {r : List Token} (hr : ends (upcoming r)) :
    ∀ more : List Phrase, ends (upcoming (Phrase.tail c more ++ r))
  | [] => hr
  | _ :: _ => hc

theorem tail_determined (hc : ends (.connective c)) (hends : ∀ t, ends' t → ends t)
    (hstop : ∀ t, ends' t → t ≠ .connective c) {r s : List Token} (hr : ends' (upcoming r))
    (hs : ends' (upcoming s)) : ∀ more more' : List α,
      (∀ a ∈ more, Determined phrase ends a) →
      Phrase.tail c (more.map phrase) ++ r = Phrase.tail c (more'.map phrase) ++ s →
      more = more' ∧ r = s
  | [], [], _, h => ⟨rfl, h⟩
  | [], b :: _, _, h => by
    have h : r = .connective c :: _ := h
    rw [h] at hr
    exact absurd rfl (hstop _ hr)
  | a :: _, [], _, h => by
    have h : .connective c :: _ = s := h
    rw [← h] at hs
    exact absurd rfl (hstop _ hs)
  | a :: more, b :: more', hmore, h => by
    simp only [List.map_cons, Phrase.tail_cons, List.cons_append, List.append_assoc,
      List.cons.injEq, true_and] at h
    have hfirst := hmore a List.mem_cons_self b _ _
      (ends_upcoming_tail hc (hends _ hr) (more.map phrase))
      (ends_upcoming_tail hc (hends _ hs) (more'.map phrase)) h
    have hrest := tail_determined hc hends hstop hr hs more more'
      (fun x hx => hmore x (List.mem_cons_of_mem _ hx)) hfirst.2
    exact ⟨by rw [hfirst.1, hrest.1], hrest.2⟩

/-- A chain is determined when its items are. -/
theorem chain_determined (hc : ends (.connective c)) (hends : ∀ t, ends' t → ends t)
    (hstop : ∀ t, ends' t → t ≠ .connective c) {first first' : α} {more more' : List α}
    (hfirst : Determined phrase ends first) (hmore : ∀ a ∈ more, Determined phrase ends a)
    {r s : List Token} (hr : ends' (upcoming r)) (hs : ends' (upcoming s))
    (h : (Phrase.chain c (phrase first) (more.map phrase)).tokens ++ r =
      (Phrase.chain c (phrase first') (more'.map phrase)).tokens ++ s) :
    first = first' ∧ more = more' ∧ r = s := by
  rw [Phrase.tokens_chain, Phrase.tokens_chain, List.append_assoc, List.append_assoc] at h
  obtain ⟨rfl, hrest⟩ := hfirst first' _ _ (ends_upcoming_tail hc (hends _ hr) _)
    (ends_upcoming_tail hc (hends _ hs) _) h
  exact ⟨rfl, tail_determined hc hends hstop hr hs more more' hmore hrest⟩

end Chains

theorem determined_relation (field : String) (comparison : Option Comparison) (literal : Value) :
    Determined Operand.phrase anyToken (.relation field comparison literal) := by
  intro b r s _ _ h
  cases b with
  | group inner => simp [Phrase.relation, Phrase.group] at h
  | relation field' comparison' literal' =>
    cases comparison <;> cases comparison' <;> simp_all [Phrase.relation]

theorem determined_group {inner : Expression}
    (hinner : Determined Expression.phrase endsExpression inner) :
    Determined Operand.phrase anyToken (.group inner) := by
  intro b r s _ _ h
  cases b with
  | relation field comparison literal => simp [Phrase.relation, Phrase.group] at h
  | group inner' =>
    simp only [phrase_group, Phrase.group, List.cons_append, List.append_assoc, List.cons.injEq,
      true_and, List.nil_append] at h
    obtain ⟨rfl, hrest⟩ := hinner inner' _ _ (by simp [endsExpression, upcoming])
      (by simp [endsExpression, upcoming]) h
    exact ⟨rfl, (List.cons.inj hrest).2⟩

mutual

theorem Expression.determined : ∀ e : Expression, Determined Expression.phrase endsExpression e
  | .chain first more => by
    rintro ⟨first', more'⟩ r s hr hs h
    rw [phrase_expression, phrase_expression] at h
    obtain ⟨rfl, rfl, rfl⟩ := chain_determined (by simp [endsConjunction]) (fun _ ht => ht .and)
      (fun _ ht => ht .or) first.determined (fun c _ => c.determined) hr hs h
    exact ⟨rfl, rfl⟩

theorem Conjunction.determined : ∀ c : Conjunction, Determined Conjunction.phrase endsConjunction c
  | .chain first more => by
    rintro ⟨first', more'⟩ r s hr hs h
    rw [phrase_conjunction, phrase_conjunction] at h
    obtain ⟨rfl, rfl, rfl⟩ := chain_determined trivial (fun _ _ => trivial) (fun _ ht => ht)
      first.determined (fun o _ => o.determined) hr hs h
    exact ⟨rfl, rfl⟩

theorem Operand.determined : ∀ o : Operand, Determined Operand.phrase anyToken o
  | .group inner => determined_group inner.determined
  | .relation field comparison literal => determined_relation field comparison literal

end

/-- **The grammar is unambiguous.** -/
theorem unambiguous {e e' : Expression} (h : e.phrase.tokens = e'.phrase.tokens) : e = e' := by
  refine (e.determined e' [] [] ?_ ?_ ?_).1
  · simp [endsExpression, upcoming]
  · simp [endsExpression, upcoming]
  · rw [h]

/-! ## Induction -/

/-- A property of phrases that relations have, and that groups and joined phrases inherit. -/
structure Inherited (P : Phrase → Prop) : Prop where
  relation : ∀ field comparison literal, P (.relation field comparison literal)
  group : ∀ p, P p → P p.group
  join : ∀ c p q, P p → P q → P (.join c p q)

section Induction
variable {P : Phrase → Prop}

theorem Inherited.chain (hP : Inherited P) (c : Connective) : ∀ {more : List Phrase}
    {first : Phrase}, P first → (∀ p ∈ more, P p) → P (.chain c first more)
  | [], _, hfirst, _ => hfirst
  | p :: _, first, hfirst, hmore => by
    rw [Phrase.chain_cons]
    exact Inherited.chain hP c (hP.join c first p hfirst (hmore p List.mem_cons_self))
      fun q hq => hmore q (List.mem_cons_of_mem _ hq)

mutual

theorem Expression.inherits (hP : Inherited P) : ∀ e : Expression, P e.phrase
  | .chain first more => by
    rw [phrase_expression]
    exact hP.chain _ (first.inherits hP) (List.forall_mem_map.mpr fun c _ => c.inherits hP)

theorem Conjunction.inherits (hP : Inherited P) : ∀ c : Conjunction, P c.phrase
  | .chain first more => by
    rw [phrase_conjunction]
    exact hP.chain _ (first.inherits hP) (List.forall_mem_map.mpr fun o _ => o.inherits hP)

theorem Operand.inherits (hP : Inherited P) : ∀ o : Operand, P o.phrase
  | .group inner => by
    rw [phrase_group]
    exact hP.group _ (inner.inherits hP)
  | .relation field comparison literal => by
    rw [phrase_relation]
    exact hP.relation field comparison literal

end

end Induction

theorem Expression.endOfInput_not_mem (e : Expression) : .endOfInput ∉ e.phrase.tokens := by
  have hinherited : Inherited fun p => .endOfInput ∉ p.tokens := by
    refine ⟨?_, ?_, ?_⟩
    · intro field comparison literal
      simp [Phrase.relation]
    · intro p hp
      simp [Phrase.group, hp]
    · intro c p q hp hq
      simp [Phrase.join, hp, hq]
  exact e.inherits hinherited

theorem Expression.tokens_ne_nil (e : Expression) : e.phrase.tokens ≠ [] := by
  have hinherited : Inherited fun p => p.tokens ≠ [] := by
    refine ⟨?_, ?_, ?_⟩
    · intro field comparison literal
      simp [Phrase.relation]
    · intro p _
      simp [Phrase.group]
    · intro c p q _ _
      simp [Phrase.join]
  exact e.inherits hinherited

end RecordFilter.Grammar
