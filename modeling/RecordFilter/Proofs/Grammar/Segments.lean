import Mathlib
import RecordFilter.Proofs.Grammar.Derivation

/-!
# Segments of expressions

A stretch of tokens that an operand derives is an operand of the derivation wherever it stands. One
that a conjunction or an expression derives is a node of the derivation when neither the token
before it nor the one after it continues it. Another node of the same level that comes to the same
can stand in its place, and the whole comes to the same as before.

* `chain_place`: where a node can begin in a chain, there is one in an item of the chain;
* `Expression.located`: where a node can begin in a derivation, there is one;
* `exists_replaced`: another node in the place of a segment;
* `exists_wrapped`: a segment in parentheses.
-/

namespace RecordFilter.Grammar

open RecordFilter.Condition (upcoming)

/-! ## Levels -/

/-- The symbols of the grammar, the lower ones first. -/
inductive Level where
  | operand
  | conjunction
  | expression

namespace Level

/-- How many kinds of chains stand below. -/
def height : Level → Nat
  | operand => 0
  | conjunction => 1
  | expression => 2

/-- The derivations from the symbol. -/
def Node : Level → Type
  | operand => Operand
  | conjunction => Conjunction
  | expression => Expression

/-- What a derivation from the symbol derives. -/
def phrase : (k : Level) → k.Node → Phrase
  | operand => Operand.phrase
  | conjunction => Conjunction.phrase
  | expression => Expression.phrase

/-- The token does not continue what the symbol derives. -/
def Stops : Level → Token → Prop
  | operand => anyToken
  | conjunction => endsConjunction
  | expression => endsExpression

theorem determined : ∀ (k : Level) (n : k.Node), Determined k.phrase k.Stops n
  | operand => Operand.determined
  | conjunction => Conjunction.determined
  | expression => Expression.determined

theorem stops_and_iff (k : Level) : k.Stops (.connective .and) ↔ k.height ≤ 0 := by
  cases k <;> simp [Stops, height, anyToken, endsConjunction, endsExpression]

theorem stops_or_iff (k : Level) : k.Stops (.connective .or) ↔ k.height ≤ 1 := by
  cases k <;> simp [Stops, height, anyToken, endsConjunction, endsExpression]

theorem stops_closeGroup (k : Level) : k.Stops .closeGroup := by
  cases k <;> simp [Stops, anyToken, endsConjunction, endsExpression]

theorem height_le (k : Level) : k.height ≤ 2 := by cases k <;> decide

theorem stops_endOfInput (k : Level) : k.Stops .endOfInput := by
  cases k <;> simp [Stops, anyToken, endsConjunction, endsExpression]

end Level

/-- The phrases come to the same: as many relations, and one condition. -/
structure Phrase.Same (p q : Phrase) : Prop where
  relations : q.relations = p.relations
  condition : q.condition = p.condition

theorem Phrase.Same.refl (p : Phrase) : p.Same p := ⟨rfl, rfl⟩

theorem Phrase.Same.trans {p q r : Phrase} (h : p.Same q) (h' : q.Same r) : p.Same r :=
  ⟨h'.relations.trans h.relations, h'.condition.trans h.condition⟩

theorem same_chain {α : Type} {phrase : α → Phrase} (c : Connective) {more more' : List α}
    (hmore : List.Forall₂ (fun a b => (phrase a).Same (phrase b)) more more') {p q : Phrase}
    (h : p.Same q) : (Phrase.chain c p (more.map phrase)).Same (.chain c q (more'.map phrase)) := by
  induction hmore generalizing p q with
  | nil => exact h
  | @cons a b more more' hfirst _ ih =>
    refine ih ⟨?_, ?_⟩
    · rw [Phrase.join, Phrase.join, h.relations, hfirst.relations]
    · rw [Phrase.join, Phrase.join, h.condition, hfirst.condition]

/-! ## Where nodes begin -/

/-- The token is one that an operand begins with. -/
def BeginsOperand : Token → Prop
  | .field _ | .openGroup => True
  | _ => False

/-- The tokens begin with a node of the level. What follows it does not continue it, and is not
empty unless a derivation of the height can be the node itself. Whatever node that comes to the same
stands in its place, the tokens are those that are asked for. -/
def Place (k : Level) (height : Nat) (rest : List Token) (Refilled : List Token → Prop) : Prop :=
  ∃ (n : k.Node) (post : List Token), rest = (k.phrase n).tokens ++ post ∧
    (∀ t ∈ post.head?, k.Stops t) ∧ (post = [] → k.height ≤ height) ∧
    ∀ n' : k.Node, (k.phrase n).Same (k.phrase n') → Refilled ((k.phrase n').tokens ++ post)

/-- Tokens behind a place, which begin with one that stops all nodes that may be at the end. -/
theorem Place.append {k : Level} {height height' : Nat} {rest ts : List Token}
    {Refilled Refilled' : List Token → Prop} (h : Place k height rest Refilled)
    (hts : ∀ t ∈ ts.head?, k.height ≤ height → k.Stops t) (hheight : ts = [] → height ≤ height')
    (hrefilled : ∀ new, Refilled new → Refilled' (new ++ ts)) :
    Place k height' (rest ++ ts) Refilled' := by
  obtain ⟨n, post, rfl, hstops, hend, hnew⟩ := h
  refine ⟨n, post ++ ts, List.append_assoc _ _ _, fun t ht => ?_, fun hnil => ?_, fun n' hn' => ?_⟩
  · cases post with
    | nil => exact hts t ht (hend rfl)
    | cons s post => exact hstops t ht
  · obtain ⟨hpost, hts⟩ := List.append_eq_nil_iff.mp hnil
    exact Nat.le_trans (hend hpost) (hheight hts)
  · have hfilled := hrefilled _ (hnew n' hn')
    rwa [List.append_assoc] at hfilled

/-- Wherever a node of the level can begin in the tokens of the derivation, there is one: where an
operand begins, and the token before does not continue a node. -/
def Located {α : Type} (phrase : α → Phrase) (height : Nat) (k : Level) (a : α) : Prop :=
  ∀ pre rest : List Token, (phrase a).tokens = pre ++ rest → BeginsOperand (upcoming rest) →
    (∀ t ∈ pre.getLast?, k.Stops t) → (pre = [] → k.height ≤ height) →
    Place k height rest fun new =>
      ∃ a' : α, (phrase a').tokens = pre ++ new ∧ (phrase a).Same (phrase a')

/-- Where an operand begins in two stretches, the second of which does not begin with one, is in the
first of them, or behind the first token of the second. -/
theorem split_cases {xs ys pre rest : List Token} (h : xs ++ ys = pre ++ rest)
    (hbegins : BeginsOperand (upcoming rest)) (hys : ¬ BeginsOperand (upcoming ys)) :
    (∃ bs, xs = pre ++ bs ∧ rest = bs ++ ys ∧ BeginsOperand (upcoming bs)) ∨
      ∃ t as, pre = xs ++ t :: as ∧ ys = t :: (as ++ rest) := by
  rcases List.append_eq_append_iff.mp h with ⟨as, rfl, rfl⟩ | ⟨bs, rfl, rfl⟩
  · cases as with
    | nil => exact absurd hbegins hys
    | cons t as => exact Or.inr ⟨t, as, rfl, rfl⟩
  · cases bs with
    | nil => exact absurd hbegins hys
    | cons t bs => exact Or.inl ⟨t :: bs, rfl, rfl, hbegins⟩

theorem mem_getLast?_of_suffix (xs : List Token) {as : List Token} {t u : Token}
    (h : u ∈ as.getLast?) : u ∈ (xs ++ t :: as).getLast? := by
  cases as with
  | nil => cases h
  | cons a as =>
    rwa [List.getLast?_append_of_ne_nil _ (List.cons_ne_nil _ _), List.getLast?_cons_cons]

section Chains
variable {α : Type} {phrase : α → Phrase} {height : Nat} {k : Level} {c : Connective}

theorem not_beginsOperand_tail (c : Connective) : ∀ more : List Phrase,
    ¬ BeginsOperand (upcoming (Phrase.tail c more))
  | [] => nofun
  | _ :: _ => nofun

/-- **Where a node can begin in a chain**, there is one in an item of the chain. -/
theorem chain_place (hc : k.Stops (.connective c) ↔ k.height ≤ height) {more : List α} {first : α}
    (hfirst : Located phrase height k first) (hmore : ∀ a ∈ more, Located phrase height k a)
    {pre rest : List Token}
    (htokens : (phrase first).tokens ++ Phrase.tail c (more.map phrase) = pre ++ rest)
    (hbegins : BeginsOperand (upcoming rest)) (hlast : ∀ t ∈ pre.getLast?, k.Stops t)
    (hpre : pre = [] → k.height ≤ height) :
    Place k height rest fun new => ∃ (first' : α) (more' : List α),
      (phrase first').tokens ++ Phrase.tail c (more'.map phrase) = pre ++ new ∧
      (phrase first).Same (phrase first') ∧
      List.Forall₂ (fun a b => (phrase a).Same (phrase b)) more more' := by
  have hself : ∀ more : List α,
      List.Forall₂ (fun a b => (phrase a).Same (phrase b)) more more :=
    fun more => List.forall₂_same.mpr fun a _ => .refl _
  induction more generalizing first pre with
  | nil =>
    rw [List.map_nil, Phrase.tail_nil, List.append_nil] at htokens
    obtain ⟨n, post, hrest, hstops, hend, hnew⟩ := hfirst pre rest htokens hbegins hlast hpre
    refine ⟨n, post, hrest, hstops, hend, fun n' hn' => ?_⟩
    obtain ⟨first', hfirst', hsame⟩ := hnew n' hn'
    exact ⟨first', [], by simpa using hfirst', hsame, hself []⟩
  | cons next more ih =>
    obtain ⟨hnext, hmore⟩ := List.forall_mem_cons.mp hmore
    have hstops : ∀ t ∈ (Phrase.tail c ((next :: more).map phrase)).head?,
        k.height ≤ height → k.Stops t := by
      rintro t ⟨⟩
      exact hc.mpr
    rcases split_cases htokens hbegins (not_beginsOperand_tail c _) with
      ⟨bs, hbs, rfl, hin⟩ | ⟨t, as, rfl, htail⟩
    · refine (hfirst pre bs hbs hin hlast hpre).append hstops (fun _ => Nat.le_refl _) fun new => ?_
      rintro ⟨first', hfirst', hsame⟩
      exact ⟨first', next :: more, by rw [hfirst', List.append_assoc], hsame, hself _⟩
    · obtain ⟨rfl, hitems⟩ := List.cons.inj htail
      have hplace := ih hnext hmore hitems (fun t ht => hlast t (mem_getLast?_of_suffix _ ht))
        fun hnil => hc.mp (hlast _ (by simp [hnil]))
      obtain ⟨n, post, hrest, hstops, hend, hnew⟩ := hplace
      refine ⟨n, post, hrest, hstops, hend, fun n' hn' => ?_⟩
      obtain ⟨next', more', hnext', hsame, hmore'⟩ := hnew n' hn'
      refine ⟨first, next' :: more', ?_, .refl _, .cons hsame hmore'⟩
      rw [List.map_cons, Phrase.tail_cons, hnext', List.append_assoc, List.cons_append]

/-- A chain is one node of its own level, and its items have those below. -/
theorem chain_located {β : Type} {chained : β → Phrase} {mk : α → List α → β}
    (hmk : ∀ first more, chained (mk first more) = .chain c (phrase first) (more.map phrase))
    (hc : k.Stops (.connective c) ↔ k.height ≤ height) {first : α} {more : List α}
    (hfirst : Located phrase height k first) (hmore : ∀ a ∈ more, Located phrase height k a)
    (hself : k.height = height + 1 → ∀ rest, (chained (mk first more)).tokens = [] ++ rest →
      Place k (height + 1) rest fun new =>
        ∃ b, (chained b).tokens = [] ++ new ∧ (chained (mk first more)).Same (chained b)) :
    Located chained (height + 1) k (mk first more) := by
  intro pre rest htokens hbegins hlast hpre
  by_cases hwhole : pre = [] ∧ k.height = height + 1
  · obtain ⟨rfl, hk⟩ := hwhole
    exact hself hk rest htokens
  · rw [hmk, Phrase.tokens_chain] at htokens
    have hitem : pre = [] → k.height ≤ height := fun hnil =>
      Nat.le_of_lt_succ (Nat.lt_of_le_of_ne (hpre hnil) fun hk => hwhole ⟨hnil, hk⟩)
    obtain ⟨n, post, hrest, hstops, hend, hnew⟩ :=
      chain_place hc hfirst hmore htokens hbegins hlast hitem
    refine ⟨n, post, hrest, hstops, fun hnil => Nat.le_succ_of_le (hend hnil), fun n' hn' => ?_⟩
    obtain ⟨first', more', htokens', hsame, hsames⟩ := hnew n' hn'
    refine ⟨mk first' more', ?_, ?_⟩
    · rw [hmk, Phrase.tokens_chain, htokens']
    · rw [hmk, hmk]
      exact same_chain c hsames hsame

end Chains

/-! ## Derivations -/

/-- A node at the beginning that is the whole derivation. -/
theorem place_self {k : Level} (n : k.Node) {rest : List Token}
    (h : (k.phrase n).tokens = [] ++ rest) :
    Place k k.height rest fun new =>
      ∃ n' : k.Node, (k.phrase n').tokens = [] ++ new ∧ (k.phrase n).Same (k.phrase n') := by
  refine ⟨n, [], ?_, nofun, fun _ => Nat.le_refl _, fun n' hn' => ⟨n', ?_, hn'⟩⟩
  · rw [h, List.nil_append, List.append_nil]
  · rw [List.nil_append, List.append_nil]

theorem upcoming_mem {ts : List Token} (h : BeginsOperand (upcoming ts)) : upcoming ts ∈ ts := by
  cases ts with
  | nil => cases h
  | cons t ts => exact List.mem_cons_self

theorem located_relation (k : Level) (field : String) (comparison : Option Comparison)
    (literal : Value) : Located Operand.phrase 0 k (.relation field comparison literal) := by
  intro pre rest htokens hbegins _ hpre
  cases pre with
  | nil =>
    cases k with
    | operand => exact place_self (k := .operand) (.relation field comparison literal) htokens
    | conjunction => exact absurd (hpre rfl) (by decide)
    | expression => exact absurd (hpre rfl) (by decide)
  | cons t pre =>
    rw [phrase_relation] at htokens
    obtain ⟨-, hrest⟩ := List.cons.inj htokens
    have hmem : upcoming rest ∈ (comparison.map Token.comparison).toList ++ [.literal literal] :=
      hrest.symm ▸ List.mem_append_right pre (upcoming_mem hbegins)
    generalize upcoming rest = t at hbegins hmem
    cases comparison with
    | none =>
      obtain rfl : t = .literal literal := by simpa using hmem
      cases hbegins
    | some o =>
      obtain rfl | rfl : t = .comparison o ∨ t = .literal literal := by simpa using hmem
      · cases hbegins
      · cases hbegins

theorem located_group {k : Level} {inner : Expression}
    (hinner : Located Expression.phrase 2 k inner) : Located Operand.phrase 0 k (.group inner) := by
  intro pre rest htokens hbegins hlast hpre
  cases pre with
  | nil =>
    cases k with
    | operand => exact place_self (k := .operand) (.group inner) htokens
    | conjunction => exact absurd (hpre rfl) (by decide)
    | expression => exact absurd (hpre rfl) (by decide)
  | cons t pre =>
    rw [phrase_group] at htokens
    obtain ⟨rfl, hinside⟩ := List.cons.inj htokens
    rcases split_cases hinside hbegins nofun with ⟨bs, hbs, rfl, hin⟩ | ⟨t, as, rfl, hclose⟩
    · have hplace := hinner pre bs hbs hin
        (fun t ht => hlast t (mem_getLast?_of_suffix [] ht)) fun _ => k.height_le
      refine hplace.append ?_ nofun fun new => ?_
      · rintro t ⟨⟩ _
        exact k.stops_closeGroup
      · rintro ⟨inner', hinner', hsame⟩
        refine ⟨.group inner', ?_, ?_⟩
        · rw [phrase_group, Phrase.group, hinner', List.append_assoc, List.cons_append]
        · rw [phrase_group, phrase_group]
          exact ⟨hsame.relations, hsame.condition⟩
    · obtain ⟨-, hnil⟩ := List.cons.inj hclose
      obtain ⟨-, rfl⟩ := List.append_eq_nil_iff.mp hnil.symm
      cases hbegins

mutual

/-- **Where a node can begin in a derivation**, there is one. -/
theorem Expression.located (k : Level) : ∀ e : Expression, Located Expression.phrase 2 k e
  | .chain first more => by
    refine chain_located phrase_expression k.stops_or_iff (first.located k)
      (fun c _ => c.located k) fun hk rest htokens => ?_
    cases k with
    | operand => cases hk
    | conjunction => cases hk
    | expression => exact place_self (k := .expression) (.chain first more) htokens

theorem Conjunction.located (k : Level) : ∀ c : Conjunction, Located Conjunction.phrase 1 k c
  | .chain first more => by
    refine chain_located phrase_conjunction k.stops_and_iff (first.located k)
      (fun o _ => o.located k) fun hk rest htokens => ?_
    cases k with
    | operand => cases hk
    | conjunction => exact place_self (k := .conjunction) (.chain first more) htokens
    | expression => cases hk

theorem Operand.located (k : Level) : ∀ o : Operand, Located Operand.phrase 0 k o
  | .group inner => located_group (inner.located k)
  | .relation field comparison literal => located_relation k field comparison literal

end

/-! ## Segments -/

theorem Level.exists_expression : ∀ (k : Level) (n : k.Node),
    ∃ e : Expression, e.phrase = k.phrase n
  | .operand, o => ⟨Operand.alone o, phrase_alone o⟩
  | .conjunction, c => ⟨Expression.chain c [], phrase_expression c []⟩
  | .expression, e => ⟨e, rfl⟩

theorem Level.exists_group (k : Level) (n : k.Node) :
    ∃ n' : k.Node, k.phrase n' = (k.phrase n).group := by
  obtain ⟨e, he⟩ := k.exists_expression n
  have hgroup : (Operand.group e).phrase = (k.phrase n).group := by rw [phrase_group, he]
  cases k with
  | operand => exact ⟨Operand.group e, hgroup⟩
  | conjunction => exact ⟨Conjunction.chain (.group e) [], (phrase_conjunction _ _).trans hgroup⟩
  | expression => exact ⟨(Operand.group e).alone, (phrase_alone _).trans hgroup⟩

theorem Expression.begins (e : Expression) :
    ∃ t ts, e.phrase.tokens = t :: ts ∧ BeginsOperand t := by
  have hinherited : Inherited fun p => ∃ t ts, p.tokens = t :: ts ∧ BeginsOperand t := by
    refine ⟨?_, ?_, ?_⟩
    · intro field comparison literal
      exact ⟨_, _, rfl, trivial⟩
    · intro p _
      exact ⟨_, _, rfl, trivial⟩
    · rintro c p q ⟨t, ts, hp, ht⟩ _
      exact ⟨t, ts ++ .connective c :: q.tokens, by rw [Phrase.join, hp, List.cons_append], ht⟩
  exact e.inherits hinherited

/-- The node stands between the tokens, and neither the last one before it nor the first one after
it continues it. -/
structure IsSegment (k : Level) (before after : List Token) : Prop where
  first : ∀ t ∈ before.getLast?, k.Stops t
  last : k.Stops (upcoming after)

/-- **Another node in the place of a segment**: what comes to the same in its place comes to the
same as a whole. -/
theorem exists_replaced {k : Level} {n n' : k.Node} {before after : List Token}
    (hsegment : IsSegment k before after) (hsame : (k.phrase n).Same (k.phrase n'))
    {e : Expression} (h : e.phrase.tokens = before ++ ((k.phrase n).tokens ++ after)) :
    ∃ e' : Expression, e'.phrase.tokens = before ++ ((k.phrase n').tokens ++ after) ∧
      e.phrase.Same e'.phrase := by
  obtain ⟨a, ha⟩ := k.exists_expression n
  obtain ⟨t, ts, htokens, ht⟩ := a.begins
  have hbegins : BeginsOperand (upcoming ((k.phrase n).tokens ++ after)) := by
    rw [← ha, htokens]
    exact ht
  obtain ⟨m, post, hrest, hstops, -, hnew⟩ :=
    e.located k before _ h hbegins hsegment.first fun _ => k.height_le
  have hpost : k.Stops (upcoming post) := by
    cases post with
    | nil => exact k.stops_endOfInput
    | cons t post => exact hstops t rfl
  obtain ⟨rfl, rfl⟩ := k.determined n m after post hsegment.last hpost hrest
  exact hnew n' hsame

/-- **A segment in parentheses** comes to the same. -/
theorem exists_wrapped {k : Level} {n : k.Node} {before after : List Token}
    (hsegment : IsSegment k before after) {e : Expression}
    (h : e.phrase.tokens = before ++ ((k.phrase n).tokens ++ after)) :
    ∃ e' : Expression,
      e'.phrase.tokens = before ++ (.openGroup :: ((k.phrase n).tokens ++ .closeGroup :: after)) ∧
      e.phrase.Same e'.phrase := by
  obtain ⟨n', hn'⟩ := k.exists_group n
  have hgroup : (k.phrase n).Same (k.phrase n') := ⟨by rw [hn']; rfl, by rw [hn']; rfl⟩
  obtain ⟨e', htokens, hsame⟩ := exists_replaced hsegment hgroup h
  refine ⟨e', ?_, hsame⟩
  rw [htokens, hn', Phrase.group, List.cons_append, List.append_assoc, List.singleton_append]

end RecordFilter.Grammar
