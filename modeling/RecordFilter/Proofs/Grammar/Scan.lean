import Mathlib
import RecordFilter.Proofs.Grammar.Derivation

/-!
# Scanning tokens from left to right

A **sentence** is an expression and the end, and tokens are **viable** when a sentence begins with
them. To tell whether they are, it is enough to know what is due next and how many groups are open:
a scan keeps both, and counts the relations.

* `Expression.traversed`: a scan passes over every derivation and is then complete;
* `reached`: what the tokens before a state of a scan look like;
* `viable_iff`: tokens are viable when a scan passes over them;
* `groups_eq`, `relations_eq`: what a scan counts.
-/

namespace RecordFilter.Grammar

/-- What has to come next. -/
inductive Due where
  | operand
  /-- The comparison or the literal of a relation. -/
  | comparison (field : String)
  /-- The literal of a relation. -/
  | literal (field : String)
  /-- An expression is complete: a connective, the end of its group, or the end. -/
  | connective
  /-- The end has been read. -/
  | nothing

/-- A state of a scan. -/
structure Scan where
  due : Due
  groups : Nat
  relations : Nat

namespace Scan

/-- Nothing has been read. -/
def start : Scan := ⟨.operand, 0, 0⟩

/-- The state after the token, if the token may come next. -/
def next? : Scan → Token → Option Scan
  | ⟨.operand, g, n⟩, .openGroup => some ⟨.operand, g + 1, n⟩
  | ⟨.operand, g, n⟩, .field f => some ⟨.comparison f, g, n + 1⟩
  | ⟨.comparison f, g, n⟩, .comparison _ => some ⟨.literal f, g, n⟩
  | ⟨.comparison _, g, n⟩, .literal _ => some ⟨.connective, g, n⟩
  | ⟨.literal _, g, n⟩, .literal _ => some ⟨.connective, g, n⟩
  | ⟨.connective, g, n⟩, .connective _ => some ⟨.operand, g, n⟩
  | ⟨.connective, g + 1, n⟩, .closeGroup => some ⟨.connective, g, n⟩
  | ⟨.connective, 0, n⟩, .endOfInput => some ⟨.nothing, 0, n⟩
  | _, _ => none

/-- A step of a scan: one case for each token that may come next. -/
inductive Step : Scan → Token → Scan → Prop
  | openGroup {g n : Nat} : Step ⟨.operand, g, n⟩ .openGroup ⟨.operand, g + 1, n⟩
  | field {g n : Nat} (f : String) : Step ⟨.operand, g, n⟩ (.field f) ⟨.comparison f, g, n + 1⟩
  | comparison {g n : Nat} {f : String} (c : Comparison) :
    Step ⟨.comparison f, g, n⟩ (.comparison c) ⟨.literal f, g, n⟩
  | implicit {g n : Nat} {f : String} (v : Value) :
    Step ⟨.comparison f, g, n⟩ (.literal v) ⟨.connective, g, n⟩
  | literal {g n : Nat} {f : String} (v : Value) :
    Step ⟨.literal f, g, n⟩ (.literal v) ⟨.connective, g, n⟩
  | connective {g n : Nat} (c : Connective) :
    Step ⟨.connective, g, n⟩ (.connective c) ⟨.operand, g, n⟩
  | closeGroup {g n : Nat} : Step ⟨.connective, g + 1, n⟩ .closeGroup ⟨.connective, g, n⟩
  | endOfInput {n : Nat} : Step ⟨.connective, 0, n⟩ .endOfInput ⟨.nothing, 0, n⟩

theorem step_of_next {s s' : Scan} {t : Token} (h : s.next? t = some s') : Step s t s' := by
  unfold next? at h
  split at h <;> cases h <;> constructor

/-- The state after the tokens, if a scan passes over them. -/
def reach (s : Scan) : List Token → Option Scan
  | [] => some s
  | t :: ts => (s.next? t).bind fun s' => s'.reach ts

@[simp] theorem reach_nil (s : Scan) : s.reach [] = some s := rfl

@[simp] theorem reach_cons (s : Scan) (t : Token) (ts : List Token) :
    s.reach (t :: ts) = (s.next? t).bind fun s' => s'.reach ts := rfl

theorem reach_append : ∀ (s : Scan) (p q : List Token),
    s.reach (p ++ q) = (s.reach p).bind fun s' => s'.reach q
  | s, [], q => rfl
  | s, t :: p, q => by
    rw [List.cons_append, reach_cons, reach_cons]
    cases s.next? t with
    | none => rfl
    | some s' => exact reach_append s' p q

theorem reach_concat {s s' : Scan} {p : List Token} (h : s.reach p = some s') (t : Token) :
    s.reach (p ++ [t]) = s'.next? t := by
  rw [reach_append, h]
  simp

theorem exists_reach_of_append {s s' : Scan} {p q : List Token} (h : s.reach (p ++ q) = some s') :
    ∃ s'', s.reach p = some s'' ∧ s''.reach q = some s' := by
  rw [reach_append] at h
  exact Option.bind_eq_some_iff.mp h

end Scan

open Scan

/-! ## Derivations -/

/-- A scan for which an operand is due passes over the phrase and is then complete. -/
def Traversed (p : Phrase) : Prop :=
  ∀ g n, reach ⟨.operand, g, n⟩ p.tokens = some ⟨.connective, g, n + p.relations⟩

theorem Expression.traversed (e : Expression) : Traversed e.phrase := by
  refine e.inherits ⟨?_, ?_, ?_⟩
  · intro field comparison literal g n
    cases comparison <;> rfl
  · intro p hp g n
    rw [Phrase.group, reach_cons]
    exact reach_concat (hp (g + 1) n) .closeGroup
  · intro c p q hp hq g n
    rw [Phrase.join, reach_append, hp g n, ← Nat.add_assoc]
    exact hq g _

/-! ## The tokens before a state -/

/-- An operand after an expression and a connective makes a longer expression. -/
theorem exists_expression_append (e : Expression) (c : Connective) (o : Operand) :
    ∃ e' : Expression, e'.phrase.tokens = e.phrase.tokens ++ .connective c :: o.phrase.tokens := by
  obtain ⟨first, more⟩ := e
  cases c with
  | or =>
    refine ⟨.chain first (more ++ [.chain o []]), ?_⟩
    simp [Phrase.chain_append, Phrase.join]
  | and =>
    rcases List.eq_nil_or_concat more with rfl | ⟨init, ⟨last, rest⟩, rfl⟩
    · obtain ⟨head, rest⟩ := first
      refine ⟨.chain (.chain head (rest ++ [o])) [], ?_⟩
      simp [Phrase.chain_append, Phrase.join]
    · refine ⟨.chain first (init ++ [.chain last (rest ++ [o])]), ?_⟩
      simp [Phrase.chain_append, Phrase.join]

/-- What may stand between the beginning of a group and an operand in it. -/
def Lead (l : List Token) : Prop :=
  l = [] ∨ ∃ (e : Expression) (c : Connective), l = e.phrase.tokens ++ [.connective c]

theorem Lead.exists_expression {l : List Token} (hl : Lead l) (o : Operand) :
    ∃ e : Expression, e.phrase.tokens = l ++ o.phrase.tokens := by
  rcases hl with rfl | ⟨e, c, rfl⟩
  · exact ⟨o.alone, by rw [phrase_alone]; rfl⟩
  · obtain ⟨e', he'⟩ := exists_expression_append e c o
    exact ⟨e', by rw [he', List.append_assoc]; rfl⟩

/-- The tokens end with the opening of the innermost of the open groups. -/
inductive Opened : Nat → List Token → Prop
  | none : Opened 0 []
  | group {g : Nat} {p l : List Token} (outer : Opened g p) (lead : Lead l) :
    Opened (g + 1) (p ++ (l ++ [.openGroup]))

/-- The tokens that a scan has passed over, by what is due after them. -/
def Reached (s : Scan) (p : List Token) : Prop :=
  ∃ q, Opened s.groups q ∧
    match s.due with
    | .operand => ∃ l, Lead l ∧ p = q ++ l
    | .comparison f => ∃ l, Lead l ∧ p = q ++ (l ++ [.field f])
    | .literal f => ∃ l c, Lead l ∧ p = q ++ (l ++ [.field f, .comparison c])
    | .connective => ∃ e : Expression, p = q ++ e.phrase.tokens
    | .nothing => ∃ e : Expression, p = e.phrase.tokens ++ [.endOfInput]

theorem exists_expression_relation {l : List Token} (hl : Lead l) (field : String)
    (comparison : Option Comparison) (literal : Value) :
    ∃ e : Expression, e.phrase.tokens =
      l ++ .field field :: ((comparison.map Token.comparison).toList ++ [.literal literal]) := by
  obtain ⟨e, he⟩ := hl.exists_expression (.relation field comparison literal)
  exact ⟨e, by rw [he, phrase_relation]; rfl⟩

/-- A step of a scan keeps the form of the tokens before its state. -/
theorem Reached.step {s s' : Scan} {p : List Token} {t : Token} (h : Reached s p)
    (ht : Step s t s') : Reached s' (p ++ [t]) := by
  obtain ⟨q, hq, h⟩ := h
  cases ht with
  | openGroup =>
    obtain ⟨l, hl, rfl⟩ := h
    exact ⟨_, hq.group hl, [], Or.inl rfl, by simp⟩
  | field f =>
    obtain ⟨l, hl, rfl⟩ := h
    exact ⟨q, hq, l, hl, by simp⟩
  | comparison c =>
    obtain ⟨l, hl, rfl⟩ := h
    exact ⟨q, hq, l, c, hl, by simp⟩
  | @implicit g n f v =>
    obtain ⟨l, hl, rfl⟩ := h
    obtain ⟨e, he⟩ := exists_expression_relation hl f none v
    exact ⟨q, hq, e, by simp [he]⟩
  | @literal g n f v =>
    obtain ⟨l, c, hl, rfl⟩ := h
    obtain ⟨e, he⟩ := exists_expression_relation hl f (some c) v
    exact ⟨q, hq, e, by simp [he]⟩
  | connective c =>
    obtain ⟨e, rfl⟩ := h
    exact ⟨q, hq, _, Or.inr ⟨e, c, rfl⟩, by simp⟩
  | closeGroup =>
    obtain ⟨e, rfl⟩ := h
    cases hq with
    | group outer lead =>
      obtain ⟨e', he'⟩ := lead.exists_expression (.group e)
      rw [phrase_group] at he'
      exact ⟨_, outer, e', by simp [he', Phrase.group]⟩
  | endOfInput =>
    obtain ⟨e, rfl⟩ := h
    cases hq with
    | none => exact ⟨[], .none, e, rfl⟩

theorem reached_of_reach : ∀ (ts : List Token) {s s' : Scan} {p : List Token}, Reached s p →
    s.reach ts = some s' → Reached s' (p ++ ts)
  | [], s, s', p, h, hs => by
    cases hs
    rwa [List.append_nil]
  | t :: ts, s, s', p, h, hs => by
    obtain ⟨s₁, hs₁, hs⟩ := Option.bind_eq_some_iff.mp hs
    rw [List.append_cons]
    exact reached_of_reach ts (h.step (step_of_next hs₁)) hs

/-- **The tokens that a scan has passed over.** -/
theorem reached {s : Scan} {p : List Token} (h : start.reach p = some s) : Reached s p :=
  reached_of_reach p (show Reached start [] from ⟨[], .none, [], Or.inl rfl, rfl⟩) h

/-! ## Viable tokens -/

/-- A sentence begins with the tokens. -/
def Viable (p : List Token) : Prop := ∃ e : Expression, p <+: e.phrase.tokens ++ [.endOfInput]

theorem Viable.of_append {p q : List Token} (h : Viable (p ++ q)) : Viable p := by
  obtain ⟨e, he⟩ := h
  exact ⟨e, (List.prefix_append p q).trans he⟩

theorem viable_complete {g : Nat} {q : List Token} (hq : Opened g q) :
    ∀ e : Expression, Viable (q ++ e.phrase.tokens) := by
  induction hq with
  | none =>
    intro e
    exact ⟨e, List.prefix_append _ _⟩
  | group outer lead ih =>
    intro e
    obtain ⟨e', he'⟩ := lead.exists_expression (.group e)
    have hclosed := ih e'
    rw [he', phrase_group] at hclosed
    refine Viable.of_append (q := [.closeGroup]) ?_
    simpa [Phrase.group] using hclosed

theorem Reached.viable {s : Scan} {p : List Token} (h : Reached s p) : Viable p := by
  obtain ⟨due, g, n⟩ := s
  obtain ⟨q, hq, h⟩ := h
  -- An expression is completed with a literal where one is due, and with a relation before that.
  have hrelation : ∀ l, Lead l → ∀ f c, Viable (q ++ (l ++ .field f ::
      ((Option.map Token.comparison c).toList ++ [.literal (.integer 0)]))) := by
    intro l hl f c
    obtain ⟨e, he⟩ := exists_expression_relation hl f c (.integer 0)
    exact he ▸ viable_complete hq e
  cases due with
  | operand =>
    obtain ⟨l, hl, rfl⟩ := h
    exact Viable.of_append (q := _) (by simpa using hrelation l hl "" none)
  | comparison f =>
    obtain ⟨l, hl, rfl⟩ := h
    exact Viable.of_append (q := [.literal (.integer 0)]) (by simpa using hrelation l hl f none)
  | literal f =>
    obtain ⟨l, c, hl, rfl⟩ := h
    exact Viable.of_append (q := [.literal (.integer 0)])
      (by simpa using hrelation l hl f (some c))
  | connective =>
    obtain ⟨e, rfl⟩ := h
    exact viable_complete hq e
  | nothing =>
    obtain ⟨e, rfl⟩ := h
    exact ⟨e, List.prefix_refl _⟩

/-- **Tokens are viable when a scan passes over them.** -/
theorem viable_iff {p : List Token} : Viable p ↔ ∃ s, start.reach p = some s := by
  constructor
  · rintro ⟨e, r, hr⟩
    have hall : start.reach (e.phrase.tokens ++ [.endOfInput]) =
        some ⟨.nothing, 0, 0 + e.phrase.relations⟩ :=
      reach_concat (e.traversed 0 0) .endOfInput
    rw [← hr] at hall
    obtain ⟨s, hs, -⟩ := exists_reach_of_append hall
    exact ⟨s, hs⟩
  · rintro ⟨s, hs⟩
    exact (reached hs).viable

/-! ## Counting -/

/-- The number of groups that the tokens open and do not close. -/
def openGroups (ts : List Token) : Nat := ts.count .openGroup - ts.count .closeGroup

/-- The token is a field. -/
def isField : Token → Bool
  | .field _ => true
  | _ => false

/-- A step counts the groups that it opens and closes, and the fields. -/
theorem Scan.Step.count {s s' : Scan} {t : Token} (h : Step s t s') :
    s'.groups + [t].count .closeGroup = s.groups + [t].count .openGroup ∧
      s'.relations = s.relations + [t].countP isField := by
  cases h with
  | closeGroup => exact ⟨rfl, rfl⟩
  | _ => simp [isField]

theorem count_of_reach : ∀ (ts : List Token) {s s' : Scan}, s.reach ts = some s' →
    s'.groups + ts.count .closeGroup = s.groups + ts.count .openGroup ∧
      s'.relations = s.relations + ts.countP isField
  | [], s, s', h => by
    cases h
    exact ⟨rfl, rfl⟩
  | t :: ts, s, s', h => by
    obtain ⟨s₁, hs₁, hs⟩ := Option.bind_eq_some_iff.mp h
    obtain ⟨hgroups, hrelations⟩ := count_of_reach ts hs
    obtain ⟨hgroups₁, hrelations₁⟩ := (step_of_next hs₁).count
    rw [← List.singleton_append, List.count_append, List.count_append, List.countP_append]
    exact ⟨by omega, by omega⟩

theorem groups_eq {s : Scan} {p : List Token} (h : start.reach p = some s) :
    s.groups = openGroups p := by
  have hcount : s.groups + p.count .closeGroup = 0 + p.count .openGroup := (count_of_reach p h).1
  unfold openGroups
  omega

theorem relations_eq {s : Scan} {p : List Token} (h : start.reach p = some s) :
    s.relations = p.countP isField := by
  have hcount : s.relations = 0 + p.countP isField := (count_of_reach p h).2
  omega

end RecordFilter.Grammar
