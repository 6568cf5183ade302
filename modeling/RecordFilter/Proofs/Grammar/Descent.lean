import Mathlib
import RecordFilter.Proofs.Grammar.Recognition

/-!
# Reading by descent

The readers as procedures that call one another and share three counters: how many tokens have been
taken, how many groups are open, and how many relations have been read. A procedure may take more
tokens than there are, goes on from whatever the counters are, and can leave a group only while one
is open. Every procedure comes to one ending from every state, and it is the one that its reader
says.

* `Runs`: the procedures;
* `Runs.unique`: a procedure comes to at most one ending;
* `performs_operand`, `performs_chain`: a procedure ends as its reader says, if those that it calls
  do.
-/

namespace RecordFilter.Grammar

open RecordFilter.Condition

/-! ## States -/

/-- A state of the descent. -/
structure Descent where
  tokens : List Token
  /-- How many tokens have been taken. -/
  position : Nat
  /-- How many groups are open. -/
  groups : Nat
  /-- How many relations have been read. -/
  relations : Nat
  deriving DecidableEq

namespace Descent

/-- How a procedure ends: with an error, or with a condition and the state that it leaves behind. -/
abbrev Ending := Except ParseError (Condition × Descent)

/-- The token that comes next; past the last one it is the end. -/
def next (s : Descent) : Token := s.tokens.getD s.position .endOfInput

/-- Takes a token, even past the last one. -/
def advance (s : Descent) : Descent := { s with position := s.position + 1 }

/-- Takes the token that opens a group. -/
def enter (s : Descent) : Descent := { s.advance with groups := s.groups + 1 }

/-- Counts a relation. -/
def count (s : Descent) : Descent := { s with relations := s.relations + 1 }

/-- Reads the literal of a relation, after its field and comparison. -/
def literal (field : String) (c : Comparison) (s : Descent) : Ending :=
  match s.next with
  | .literal v => .ok (.relation c field v, s.advance)
  | found => .error (.missingValue field found)

/-- Reads a relation after its field, and counts it before anything else. -/
def relation (field : String) (s : Descent) : Ending :=
  let s := s.count
  if maxRelations < s.relations then .error .tooManyRelations
  else
    match s.next with
    | .comparison c => s.advance.literal field c
    | _ => s.literal field .eq

/-- Reads an operand that is no group. -/
def leaf (s : Descent) : Ending :=
  match s.next with
  | .field name => relation name s.advance
  | found => .error (.unexpectedToken found)

/-- Leaves a group after its expression. -/
def leave : Ending → Ending
  | .error e => .error e
  | .ok (c, s) =>
    let s := { s with groups := s.groups - 1 }
    match s.next with
    | .closeGroup => .ok (c, s.advance)
    | found => .error (.unclosedGroup found)

end Descent

/-! ## Procedures -/

open Descent (Ending)

/-- What is called. -/
inductive Procedure where
  | operand
  /-- A chain of operands, or one of conjunctions. -/
  | chain (c : Connective)
  /-- The rest of a chain, after what has been read of it. -/
  | chainAfter (c : Connective) (left : Condition)

/-- What stands between two connectives. -/
def Procedure.item : Connective → Procedure
  | .and => .operand
  | .or => .chain .and

/-- A procedure, the state from which it is called, and how it ends. -/
inductive Runs : Procedure → Descent → Ending → Prop
  | leaf {s : Descent} (h : s.next ≠ .openGroup) : Runs .operand s s.leaf
  | tooDeep {s : Descent} (h : s.next = .openGroup) (hfull : maxNesting ≤ s.groups) :
    Runs .operand s (.error .nestingTooDeep)
  /-- After the expression there has to be an open group to leave. -/
  | group {s : Descent} {r : Ending} (h : s.next = .openGroup) (hroom : s.groups < maxNesting)
    (inner : Runs (.chain .or) s.enter r) (hopen : ∀ c t, r = .ok (c, t) → 0 < t.groups) :
    Runs .operand s (Descent.leave r)
  | firstError {c : Connective} {s : Descent} {e : ParseError}
    (first : Runs (.item c) s (.error e)) : Runs (.chain c) s (.error e)
  | first {c : Connective} {s t : Descent} {left : Condition} {r : Ending}
    (first : Runs (.item c) s (.ok (left, t))) (rest : Runs (.chainAfter c left) t r) :
    Runs (.chain c) s r
  | stop {c : Connective} {left : Condition} {s : Descent} (h : s.next ≠ .connective c) :
    Runs (.chainAfter c left) s (.ok (left, s))
  | itemError {c : Connective} {left : Condition} {s : Descent} {e : ParseError}
    (h : s.next = .connective c) (item : Runs (.item c) s.advance (.error e)) :
    Runs (.chainAfter c left) s (.error e)
  | item {c : Connective} {left right : Condition} {s t : Descent} {r : Ending}
    (h : s.next = .connective c) (item : Runs (.item c) s.advance (.ok (right, t)))
    (rest : Runs (.chainAfter c (.join c left right)) t r) : Runs (.chainAfter c left) s r

/-- **A procedure comes to at most one ending.** -/
theorem Runs.unique {p : Procedure} {s : Descent} {r r' : Ending} (h : Runs p s r)
    (h' : Runs p s r') : r = r' := by
  induction h generalizing r' with
  | leaf h =>
    cases h' with
    | leaf => rfl
    | tooDeep hgroup => exact absurd hgroup h
    | group hgroup => exact absurd hgroup h
  | tooDeep h hfull =>
    cases h' with
    | leaf hgroup => exact absurd h hgroup
    | tooDeep => rfl
    | group _ hroom => exact absurd hroom (Nat.not_lt.mpr hfull)
  | group h hroom _ _ ih =>
    cases h' with
    | leaf hgroup => exact absurd h hgroup
    | tooDeep _ hfull => exact absurd hroom (Nat.not_lt.mpr hfull)
    | group _ _ inner' => rw [ih inner']
  | firstError _ ih =>
    cases h' with
    | firstError first' => exact ih first'
    | first first' => cases ih first'
  | first _ _ ih ihrest =>
    cases h' with
    | firstError first' => cases ih first'
    | first first' rest' =>
      cases ih first'
      exact ihrest rest'
  | stop h =>
    cases h' with
    | stop => rfl
    | itemError hc => exact absurd hc h
    | item hc => exact absurd hc h
  | itemError h _ ih =>
    cases h' with
    | stop hc => exact absurd h hc
    | itemError _ item' => exact ih item'
    | item _ item' => cases ih item'
  | item h _ _ ih ihrest =>
    cases h' with
    | stop hc => exact absurd h hc
    | itemError _ item' => cases ih item'
    | item _ item' rest' =>
      cases ih item'
      exact ihrest rest'

/-! ## Procedures and readers -/

namespace Descent

/-- The tokens that have not been taken. -/
def rest (s : Descent) : List Token := s.tokens.drop s.position

/-- Where a reader stands in this state. -/
def place (s : Descent) : Position := ⟨s.rest, s.relations⟩

/-- The state of a reader that has come to another place. -/
def moved (s : Descent) (q : Position) : Descent :=
  { s with position := s.position + (s.rest.length - q.rest.length), relations := q.relations }

/-- How a procedure ends when its reader finds this. -/
def ending (s : Descent) : Except ParseError (Condition × Position) → Ending
  | .error e => .error e
  | .ok (c, q) => .ok (c, s.moved q)

variable {s : Descent} {q : Position}

theorem next_eq (s : Descent) : s.next = upcoming s.rest := by
  rw [next, rest, upcoming, List.headD_eq_head?_getD, List.head?_drop, List.getD_eq_getElem?_getD]

theorem rest_advance {t : Token} {ts : List Token} (h : s.rest = t :: ts) :
    s.advance.rest = ts := by
  rw [rest, advance, ← List.drop_drop]
  show List.drop 1 s.rest = ts
  rw [h]
  rfl

theorem rest_moved (h : q.rest <:+ s.rest) : (s.moved q).rest = q.rest := by
  obtain ⟨taken, htaken⟩ := h
  rw [rest, moved, ← List.drop_drop]
  show List.drop _ s.rest = q.rest
  rw [← htaken]
  simp

theorem place_moved (h : q.rest <:+ s.rest) : (s.moved q).place = q := by
  rw [place, rest_moved h]
  rfl

theorem moved_moved {q' : Position} (h : q.rest <:+ s.rest) (h' : q'.rest <:+ q.rest) :
    (s.moved q).moved q' = s.moved q' := by
  have hle := h.length_le
  have hle' := h'.length_le
  have hposition : s.position + (s.rest.length - q.rest.length) +
      (q.rest.length - q'.rest.length) = s.position + (s.rest.length - q'.rest.length) := by omega
  rw [moved, rest_moved h]
  simp only [moved, hposition]

theorem moved_place (s : Descent) : s.moved s.place = s := by
  rw [moved, place, Nat.sub_self]
  rfl

theorem advance_eq {t : Token} {ts : List Token} (h : s.rest = t :: ts) :
    s.advance = s.moved ⟨ts, s.relations⟩ := by
  rw [moved, h, List.length_cons, Nat.add_sub_cancel_left]
  rfl

/-- Moving on from the place of another state, as far as something is found. -/
theorem ending_moved (h : q.rest <:+ s.rest) {found : Except ParseError (Condition × Position)}
    (hfound : ∀ c q', found = .ok (c, q') → q'.rest <:+ q.rest) :
    (s.moved q).ending found = s.ending found := by
  cases found with
  | error e => rfl
  | ok res =>
    obtain ⟨c, q'⟩ := res
    rw [ending, ending, moved_moved h (hfound c q' rfl)]

end Descent

/-! ### Relations -/

namespace Descent

variable {s : Descent}

theorem literal_eq (field : String) (c : Comparison) (s : Descent) :
    s.count.literal field c = s.ending (literalOf field c s.place) := by
  have hnext : s.count.next = upcoming s.rest := s.next_eq
  rw [literal, hnext, literalOf, place]
  cases hrest : s.rest with
  | nil => rfl
  | cons t ts =>
    cases t with
    | literal v =>
      show Except.ok (Condition.relation c field v, s.count.advance) = _
      rw [ending, moved, hrest]
      simp [count, advance]
    | _ => rfl

theorem suffix_of_literalOf {field : String} {comparison : Comparison} {p q : Position}
    {c : Condition} (h : literalOf field comparison p = .ok (c, q)) : q.rest <:+ p.rest := by
  obtain ⟨v, hrest, -, -⟩ := literalOf_eq_ok h
  exact hrest ▸ List.suffix_cons _ _

theorem suffix_of_relationOf {field : String} {p q : Position} {c : Condition}
    (h : relationOf field p = .ok (c, q)) : q.rest <:+ p.rest := by
  obtain ⟨comparison, literal, hrest, -, -, -⟩ := relationOf_sound h
  exact ⟨_, (List.cons.inj hrest).2.symm⟩

theorem relation_eq (field : String) (s : Descent) :
    s.relation field = s.ending (relationOf field s.place) := by
  have hnext : s.count.next = upcoming s.rest := s.next_eq
  rcases Nat.lt_or_ge s.relations maxRelations with hn | hn
  · have hroom : ¬ maxRelations < s.count.relations := Nat.not_lt.mpr hn
    rw [relation, if_neg hroom, hnext]
    by_cases hc : ∃ c, upcoming s.rest = .comparison c
    · obtain ⟨c, hc⟩ := hc
      cases hrest : s.rest with
      | nil => rw [hrest] at hc; cases hc
      | cons t ts =>
        rw [hrest] at hc
        cases (show t = _ from hc)
        have hadvance : s.count.advance = s.advance.count := rfl
        have hplace : s.place = ⟨.comparison c :: ts, s.relations⟩ := by rw [place, hrest]
        have hsuffix : ts <:+ s.rest := hrest ▸ List.suffix_cons _ _
        show s.count.advance.literal field c = _
        rw [hadvance, literal_eq, hplace, relationOf_comparison hn, advance_eq hrest,
          place_moved hsuffix]
        exact ending_moved hsuffix fun _ _ h => suffix_of_literalOf h
    · rw [place, relationOf_implicit hn field (not_exists.mp hc)]
      refine Eq.trans ?_ (literal_eq field .eq s)
      split
      · next c hcomparison => exact absurd ⟨c, hcomparison⟩ hc
      · rfl
  · have hfull : maxRelations < s.count.relations := Nat.lt_succ_of_le hn
    rw [relation, if_pos hfull, place, relationOf_full hn]
    rfl

end Descent

/-! ### Groups and chains -/

/-- The reader takes tokens off the front. -/
def Takes (r : Reader) : Prop := ∀ p c q, r p = .ok (c, q) → q.rest <:+ p.rest

/-- With `groups` open groups, the procedure ends as the reader says. -/
structure Performs (p : Procedure) (groups : Nat) (r : Reader) : Prop where
  takes : Takes r
  runs : ∀ s : Descent, s.groups = groups → Runs p s (s.ending (r s.place))

section Performs
variable {g : Nat} {group item : Reader} {c : Connective}

theorem Takes.operand (h : Takes group) : Takes (operand group) := by
  intro p d q hq
  unfold Condition.operand at hq
  split at hq
  · next ts hp =>
    cases hg : group ⟨ts, p.relations⟩ with
    | error e => rw [hg] at hq; cases hq
    | ok res =>
      obtain ⟨inner, q'⟩ := res
      rw [hg] at hq
      dsimp only at hq
      split at hq
      · next ts' hq' =>
        cases hq
        have hinner := h _ _ _ hg
        rw [hq'] at hinner
        rw [hp]
        exact ((List.suffix_cons _ _).trans hinner).trans (List.suffix_cons _ _)
      · cases hq
  · next name ts hp =>
    rw [hp]
    exact (Descent.suffix_of_relationOf hq).trans (List.suffix_cons _ _)
  · cases hq

theorem exists_rest_of_upcoming {ts : List Token} {t : Token} (h : upcoming ts = t)
    (ht : t ≠ .endOfInput) : ∃ ts', ts = t :: ts' := by
  cases ts with
  | nil => exact absurd h.symm ht
  | cons t' ts' => exact ⟨ts', by rw [show t' = t from h]⟩

/-- What is left of a group when its expression has been found. -/
theorem leave_ending {s : Descent} {ts : List Token} (hrest : s.rest = .openGroup :: ts)
    (htakes : Takes group) :
    Descent.leave (s.enter.ending (group s.enter.place)) = s.ending (operand group s.place) := by
  have henter : s.enter.rest = ts := Descent.rest_advance hrest
  have hplace : s.enter.place = ⟨ts, s.relations⟩ := by
    rw [Descent.place, henter]
    rfl
  rw [hplace, Descent.place, hrest, operand]
  dsimp only
  cases hfound : group ⟨ts, s.relations⟩ with
  | error e => rfl
  | ok res =>
    obtain ⟨c, q⟩ := res
    have hsuffix := htakes _ _ _ hfound
    have hle := hsuffix.length_le
    dsimp only at hle
    have hnext : (s.enter.moved q).next = upcoming q.rest := by
      rw [Descent.next_eq, Descent.rest_moved (henter ▸ hsuffix)]
    obtain ⟨rest, n⟩ := q
    show (match (s.enter.moved ⟨rest, n⟩).next with
      | .closeGroup => Except.ok (c, _)
      | found => Except.error (ParseError.unclosedGroup found)) = _
    rw [hnext]
    cases rest with
    | nil => rfl
    | cons t rest =>
      cases t with
      | closeGroup =>
        rw [List.length_cons] at hle
        have hposition : s.position + 1 + (ts.length - (rest.length + 1)) + 1 =
            s.position + (ts.length + 1 - rest.length) := by omega
        show Except.ok (c, _) = Except.ok (c, s.moved ⟨rest, n⟩)
        simp only [Descent.moved, henter, hrest, List.length_cons]
        simp only [Descent.enter, Descent.advance, hposition, Nat.add_sub_cancel]
      | _ => rfl

theorem performs_operand (htakes : Takes group)
    (hgroup : g < maxNesting → Performs (.chain .or) (g + 1) group)
    (hfull : maxNesting ≤ g → group = tooDeep) : Performs .operand g (operand group) := by
  refine ⟨htakes.operand, fun s hs => ?_⟩
  by_cases hopen : s.next = .openGroup
  · obtain ⟨ts, hrest⟩ := exists_rest_of_upcoming (s.next_eq ▸ hopen) (by decide)
    rcases Nat.lt_or_ge g maxNesting with hg | hg
    · have hinner := (hgroup hg).runs s.enter (congrArg (· + 1) hs)
      rw [← leave_ending hrest htakes]
      refine .group hopen (hs ▸ hg) hinner fun c t ht => ?_
      cases hfound : group s.enter.place with
      | error e => rw [hfound] at ht; cases ht
      | ok res =>
        rw [hfound] at ht
        cases ht
        exact Nat.succ_pos _
    · have hnone : operand group s.place = .error .nestingTooDeep := by
        rw [hfull hg, Descent.place, hrest]
        rfl
      rw [hnone]
      exact .tooDeep hopen (hs ▸ hg)
  · have hleaf : s.leaf = s.ending (operand group s.place) := by
      rw [Descent.leaf, s.next_eq, Descent.place]
      rw [s.next_eq] at hopen
      cases hrest : s.rest with
      | nil => rfl
      | cons t ts =>
        rw [hrest] at hopen
        cases t with
        | openGroup => exact absurd rfl hopen
        | field name =>
          have hsuffix : ts <:+ s.rest := hrest ▸ List.suffix_cons _ _
          show s.advance.relation name = s.ending (relationOf name ⟨ts, s.relations⟩)
          rw [Descent.relation_eq, Descent.advance_eq hrest, Descent.place_moved hsuffix]
          exact Descent.ending_moved hsuffix fun _ _ h => Descent.suffix_of_relationOf h
        | _ => rfl
    rw [← hleaf]
    exact .leaf hopen

theorem Takes.chainAfter (h : Takes item) (bound : Nat) (left : Condition) :
    Takes (chainAfter c item bound left) := by
  induction bound generalizing left with
  | zero =>
    intro p d q hq
    cases hq
    exact List.suffix_refl _
  | succ bound ih =>
    intro p d q hq
    by_cases hc : upcoming p.rest = .connective c
    · obtain ⟨ts, hts⟩ := exists_rest_of_upcoming hc Token.noConfusion
      rw [show p = ⟨.connective c :: ts, p.relations⟩ by rw [← hts], chainAfter_connective] at hq
      cases hfound : item ⟨ts, p.relations⟩ with
      | error e => rw [hfound] at hq; cases hq
      | ok res =>
        obtain ⟨right, q'⟩ := res
        rw [hfound] at hq
        rw [hts]
        exact ((ih _ _ _ _ hq).trans (h _ _ _ hfound)).trans (List.suffix_cons _ _)
    · rw [show p = ⟨p.rest, p.relations⟩ from rfl, chainAfter_stop hc] at hq
      cases hq
      exact List.suffix_refl _

/-- The rest of a chain is read as its reader says, if its items are. The bound on the number of
connectives is never the reason why it stops. -/
theorem runs_chainAfter (hitem : Performs (.item c) g item) : ∀ (bound : Nat) (left : Condition)
    (s : Descent), s.groups = g → s.rest.length ≤ bound →
      Runs (.chainAfter c left) s (s.ending (chainAfter c item bound left s.place)) := by
  intro bound
  induction bound with
  | zero =>
    intro left s _ hlen
    have hnil : s.rest = [] := List.length_eq_zero_iff.mp (Nat.le_zero.mp hlen)
    have hstop : s.next ≠ .connective c := by
      rw [s.next_eq, hnil]
      exact Token.noConfusion
    have hself : s.ending (.ok (left, s.place)) = .ok (left, s) := by
      rw [Descent.ending, s.moved_place]
    rw [chainAfter, hself]
    exact .stop hstop
  | succ bound ih =>
    intro left s hs hlen
    by_cases hc : s.next = .connective c
    · have hnext : upcoming s.rest = .connective c := s.next_eq ▸ hc
      obtain ⟨ts, hrest⟩ := exists_rest_of_upcoming hnext Token.noConfusion
      have hsuffix : ts <:+ s.rest := hrest ▸ List.suffix_cons _ _
      have hrun := hitem.runs s.advance hs
      rw [Descent.advance_eq hrest, Descent.place_moved hsuffix] at hrun
      rw [Descent.place, hrest, chainAfter_connective]
      cases hfound : item ⟨ts, s.relations⟩ with
      | error e =>
        rw [hfound] at hrun
        exact .itemError hc (Descent.advance_eq hrest ▸ hrun)
      | ok res =>
        obtain ⟨right, q⟩ := res
        have htaken := hitem.takes _ _ _ hfound
        have hq : q.rest <:+ s.rest := htaken.trans hsuffix
        have hlen' : (s.moved q).rest.length ≤ bound := by
          have hle := htaken.length_le
          rw [hrest, List.length_cons] at hlen
          rw [Descent.rest_moved hq]
          exact Nat.le_trans hle (Nat.le_of_succ_le_succ hlen)
        have hmore := ih (.join c left right) (s.moved q) hs hlen'
        rw [Descent.place_moved hq,
          Descent.ending_moved hq fun _ _ h => hitem.takes.chainAfter bound _ _ _ _ h] at hmore
        rw [hfound, Descent.ending_moved hsuffix fun _ _ h => by cases h; exact htaken] at hrun
        exact .item hc (Descent.advance_eq hrest ▸ hrun) hmore
    · have hself : s.ending (.ok (left, s.place)) = .ok (left, s) := by
        rw [Descent.ending, s.moved_place]
      rw [Descent.place, chainAfter_stop (s.next_eq ▸ hc)]
      exact hself ▸ .stop hc

theorem performs_chain (hitem : Performs (.item c) g item) :
    Performs (.chain c) g (chain c item) := by
  constructor
  · intro p d q hq
    unfold chain at hq
    cases hfound : item p with
    | error e => rw [hfound] at hq; cases hq
    | ok res =>
      obtain ⟨left, q'⟩ := res
      rw [hfound] at hq
      exact (hitem.takes.chainAfter _ _ _ _ _ hq).trans (hitem.takes _ _ _ hfound)
  · intro s hs
    have hrun := hitem.runs s hs
    rw [chain]
    cases hfound : item s.place with
    | error e =>
      rw [hfound] at hrun
      exact .firstError hrun
    | ok res =>
      obtain ⟨left, q⟩ := res
      have htaken : q.rest <:+ s.rest := hitem.takes _ _ _ hfound
      have hmore := runs_chainAfter hitem q.rest.length left (s.moved q) hs
        (by rw [Descent.rest_moved htaken])
      rw [Descent.place_moved htaken,
        Descent.ending_moved htaken fun _ _ h => hitem.takes.chainAfter _ _ _ _ _ h] at hmore
      rw [hfound] at hrun
      exact .first hrun hmore

end Performs

end RecordFilter.Grammar
