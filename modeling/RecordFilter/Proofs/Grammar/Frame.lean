import Mathlib
import RecordFilter.Proofs.Grammar.Composition
import RecordFilter.Proofs.Grammar.Descent
import RecordFilter.Proofs.Grammar.Segments

/-!
# The frame of a procedure

What a procedure leaves behind is determined by the tokens that it has taken: as many groups are
open as before, the condition that it gives has as many relations as it has counted, and the tokens
are those of a derivation of its symbol. The same tokens give the same condition wherever the
procedure takes them.

* `Level.performs`: the procedures of the three symbols end as the readers say;
* `Level.sound`, `Level.complete`: what the readers of the three symbols take;
* `matched_phrase`: the groups of a derivation;
* `runs_framed`: the frame of a procedure.
-/

namespace RecordFilter.Grammar

open RecordFilter.Condition
open Descent (Ending)

namespace Level

/-- The procedure of a symbol. -/
def procedure : Level → Procedure
  | operand => .operand
  | conjunction => .chain .and
  | expression => .chain .or

/-- The reader of a symbol, when at most `levels` parentheses may be opened from outside. -/
def reader (levels : Nat) : Level → Reader
  | operand => Condition.operand (inGroup levels)
  | conjunction => Condition.conjunction (inGroup levels)
  | expression => Condition.expression levels

end Level

/-! ## Procedures -/

theorem performs_operand_inGroup (levels g : Nat) (hlevels : maxNesting - g = levels) :
    Performs .operand g (operand (inGroup levels)) := by
  induction levels generalizing g with
  | zero =>
    have hfull : maxNesting ≤ g := Nat.le_of_sub_eq_zero hlevels
    have hnone : Takes (inGroup 0) := fun _ _ _ h => nomatch h
    exact performs_operand hnone (fun hg => absurd hg (Nat.not_lt.mpr hfull)) fun _ => rfl
  | succ levels ih =>
    have hroom : g < maxNesting := by omega
    have hinner : Performs (.chain .or) (g + 1) (inGroup (levels + 1)) := by
      rw [inGroup, expression_eq]
      exact performs_chain (c := .or) (performs_chain (c := .and) (ih (g + 1) (by omega)))
    exact performs_operand hinner.takes (fun _ => hinner)
      fun hg => absurd hroom (Nat.not_lt.mpr hg)

/-- **The procedures of the three symbols end as the readers say.** -/
theorem Level.performs (k : Level) (g : Nat) :
    Performs k.procedure g (k.reader (maxNesting - g)) := by
  have hoperand := performs_operand_inGroup (maxNesting - g) g rfl
  have hconjunction := performs_chain (c := .and) hoperand
  cases k with
  | operand => exact hoperand
  | conjunction => exact hconjunction
  | expression =>
    rw [reader, expression_eq]
    exact performs_chain (c := .or) hconjunction

/-- A procedure comes to an ending, to no other one, and it is that of its reader. -/
theorem Level.runs_iff (k : Level) (s : Descent) (r : Ending) :
    Runs k.procedure s r ↔ r = s.ending (k.reader (maxNesting - s.groups) s.place) := by
  have hruns := (k.performs s.groups).runs s rfl
  exact ⟨fun h => h.unique hruns, fun h => h ▸ hruns⟩

/-! ## Readers -/

theorem inGroup_sound (levels : Nat) : Sound (inGroup levels) Expression.phrase levels := by
  cases levels with
  | zero => exact fun _ _ _ h => nomatch h
  | succ levels => exact expression_sound levels

theorem inGroup_complete (levels : Nat) (e : Expression) (he : e.phrase.nesting < levels) :
    Complete (inGroup levels) endsExpression e.phrase := by
  cases levels with
  | zero => exact absurd he (Nat.not_lt_zero _)
  | succ levels => exact expression_complete levels e (Nat.le_of_lt_succ he)

namespace Level

theorem sound (k : Level) (levels : Nat) : Sound (k.reader levels) k.phrase (levels + 1) := by
  cases k with
  | operand => exact operand_sound (inGroup_sound levels)
  | conjunction => exact conjunction_sound (inGroup_sound levels)
  | expression => exact expression_sound levels

theorem complete (k : Level) (levels : Nat) (n : k.Node) (hn : (k.phrase n).nesting ≤ levels) :
    Complete (k.reader levels) k.Stops (k.phrase n) := by
  cases k with
  | operand => exact operand_complete (inGroup_complete levels) n hn
  | conjunction => exact conjunction_complete (inGroup_complete levels) n hn
  | expression => exact expression_complete levels n hn

end Level

/-! ## Groups -/

/-- The tokens close every group that they open, and none that they have not opened. -/
structure Matched (ts : List Token) : Prop where
  closed : ts.count .closeGroup = ts.count .openGroup
  opened : ∀ l, l <+: ts → l.count .closeGroup ≤ l.count .openGroup

theorem matched_phrase (e : Expression) : Matched e.phrase.tokens where
  closed := (e.inherits balanced_inherited).closed.symm
  opened := by
    rintro l ⟨rest, hrest⟩
    have hreach := e.traversed 0 0
    rw [← hrest] at hreach
    obtain ⟨s, hs, -⟩ := Scan.exists_reach_of_append hreach
    have hcount : s.groups + l.count .closeGroup = 0 + l.count .openGroup :=
      (count_of_reach l hs).1
    omega

/-! ## Frames -/

/-- The state after a segment that gives a condition. -/
def Descent.past (s : Descent) (segment : List Token) (c : Condition) : Descent :=
  { s with position := s.position + segment.length, relations := s.relations + c.relations }

theorem Descent.moved_eq_past {s : Descent} {segment rest : List Token} {c : Condition} {n : Nat}
    (hrest : s.rest = segment ++ rest) (hn : n = s.relations + c.relations) :
    s.moved ⟨rest, n⟩ = s.past segment c := by
  rw [moved, hrest, List.length_append, Nat.add_sub_cancel, hn]
  rfl

theorem Level.exists_node (k : Level) {s t : Descent} {c : Condition}
    (h : Runs k.procedure s (.ok (c, t))) :
    ∃ n : k.Node, (k.phrase n).condition = c ∧ s.rest = (k.phrase n).tokens ++ t.rest ∧
      t = s.past (k.phrase n).tokens c := by
  have hending := (k.runs_iff s _).mp h
  cases hfound : k.reader (maxNesting - s.groups) s.place with
  | error e => rw [hfound] at hending; cases hending
  | ok res =>
    obtain ⟨d, rest, m⟩ := res
    rw [hfound] at hending
    obtain ⟨rfl, rfl⟩ := Prod.mk.inj (Except.ok.inj hending)
    obtain ⟨n, hrest, hm, -, rfl, -⟩ := k.sound _ _ _ _ hfound
    have hsuffix : rest <:+ s.rest := ⟨_, hrest.symm⟩
    obtain ⟨e, he⟩ := k.exists_expression n
    have hcount : (k.phrase n).relations = (k.phrase n).condition.relations := by
      rw [← he, e.relations_condition]
    refine ⟨n, rfl, ?_, Descent.moved_eq_past hrest (hm.trans (congrArg _ hcount))⟩
    rw [Descent.rest_moved hsuffix]
    exact hrest

/-- The tokens of a derivation are taken wherever nothing continues them and the limits leave room
for them. -/
theorem Level.runs_of_node (k : Level) {n : k.Node} {u : Descent} {rest : List Token}
    (hrest : u.rest = (k.phrase n).tokens ++ rest) (hstops : k.Stops (upcoming rest))
    (hnesting : (k.phrase n).nesting ≤ maxNesting - u.groups)
    (hrelations : u.relations + (k.phrase n).condition.relations ≤ maxRelations) :
    Runs k.procedure u
      (.ok ((k.phrase n).condition, u.past (k.phrase n).tokens (k.phrase n).condition)) := by
  obtain ⟨e, he⟩ := k.exists_expression n
  have hcount : (k.phrase n).condition.relations = (k.phrase n).relations := by
    rw [← he, e.relations_condition]
  have hfound := k.complete _ n hnesting rest u.relations hstops (hcount ▸ hrelations)
  rw [k.runs_iff, Descent.place, hrest, hfound, Descent.ending,
    Descent.moved_eq_past hrest (congrArg _ hcount.symm)]

/-- **The frame of a procedure.** Whatever the state, the procedure of a symbol comes to one ending,
the one that its reader finds, and never has to leave a group while none is open. If it gives a
condition, it has taken a segment of the tokens: not an empty one, without the end, and whose groups
match. The position has gone on by the segment, the groups that are open are those from before, and
what has been counted are the relations of the condition. The segment determines the condition: in
any other state from which the procedure takes just this segment it gives the same condition, and it
takes it when what follows does not continue it and the limits leave room for it. -/
theorem runs_framed (k : Level) (s : Descent) :
    (∀ r, Runs k.procedure s r ↔
      r = s.ending (k.reader (maxNesting - s.groups) s.place)) ∧
    ∀ c t, Runs k.procedure s (.ok (c, t)) →
      ∃ segment : List Token, segment ≠ [] ∧ .endOfInput ∉ segment ∧ Matched segment ∧
        s.rest = segment ++ t.rest ∧ t = s.past segment c ∧
        (∀ u c' u', Runs k.procedure u (.ok (c', u')) → u.rest = segment ++ u'.rest → c' = c) ∧
        ∀ u rest, u.rest = segment ++ rest → k.Stops (upcoming rest) →
          OpensAtMost (maxNesting - u.groups) segment →
          u.relations + c.relations ≤ maxRelations →
          Runs k.procedure u (.ok (c, u.past segment c)) := by
  refine ⟨k.runs_iff s, fun c t h => ?_⟩
  obtain ⟨n, rfl, hrest, ht⟩ := k.exists_node h
  obtain ⟨e, he⟩ := k.exists_expression n
  refine ⟨(k.phrase n).tokens, ?_, ?_, ?_, hrest, ht, ?_, ?_⟩
  · exact he ▸ e.tokens_ne_nil
  · exact he ▸ e.endOfInput_not_mem
  · exact he ▸ matched_phrase e
  · intro u c' u' hu hsegment
    obtain ⟨n', rfl, hrest', -⟩ := k.exists_node hu
    obtain ⟨e', he'⟩ := k.exists_expression n'
    have htokens : e'.phrase.tokens = e.phrase.tokens := by
      rw [he, he']
      exact List.append_cancel_right (hrest'.symm.trans hsegment)
    rw [← he, ← he', unambiguous htokens]
  · intro u rest hu hstops hopens hrelations
    have hnesting : (k.phrase n).nesting ≤ maxNesting - u.groups := by
      rw [← he]
      have hopens' : OpensAtMost (maxNesting - u.groups) (e.phrase.tokens ++ []) := by
        rwa [List.append_nil, he]
      exact Expression.nesting_le hopens'
    exact k.runs_of_node hu hstops hnesting hrelations

/-- The tokens of `(a 1 or b gt 2)`. -/
def groupTokens : List Token :=
  [.openGroup, .field "a", .literal (.integer 1), .connective .or, .field "b", .comparison .gt,
    .literal (.integer 2), .closeGroup]

/-- The operand with which both limits are reached, behind a relation in a group that is still
open, gives the same condition at the beginning of other tokens. -/
theorem runs_framed_at_limits :
    let ts := [.field "x", .literal (.integer 1), .connective .and] ++ groupTokens ++
      [.closeGroup, .endOfInput]
    let us := groupTokens ++ [.endOfInput]
    let c := Condition.join .or (.relation .eq "a" (.integer 1)) (.relation .gt "b" (.integer 2))
    Runs .operand ⟨ts, 3, 255, 1022⟩ (.ok (c, ⟨ts, 11, 255, 1024⟩)) ∧
      Runs .operand ⟨us, 0, 0, 0⟩ (.ok (c, ⟨us, 8, 0, 2⟩)) := by
  intro ts us c
  obtain ⟨hiff, hframe⟩ := runs_framed .operand ⟨ts, 3, 255, 1022⟩
  have hrun : Runs .operand ⟨ts, 3, 255, 1022⟩ (.ok (c, ⟨ts, 11, 255, 1024⟩)) :=
    (hiff _).mpr (by decide)
  obtain ⟨segment, -, -, -, hrest, -, -, hagain⟩ := hframe _ _ hrun
  have htaken : segment ++ [.closeGroup, .endOfInput] =
      groupTokens ++ [.closeGroup, .endOfInput] := hrest.symm
  obtain rfl := List.append_cancel_right htaken
  exact ⟨hrun, hagain ⟨us, 0, 0, 0⟩ [.endOfInput] rfl trivial (by decide) (by decide)⟩

end RecordFilter.Grammar
