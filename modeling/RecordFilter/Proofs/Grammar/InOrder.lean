import Mathlib
import RecordFilter.Proofs.Conditions.Leaves
import RecordFilter.Proofs.Conditions.Passes
import RecordFilter.Proofs.Grammar.Composition
import RecordFilter.Proofs.Grammar.FirstFault

/-!
# What is read is what is written

The condition of a text has the relations that the tokens write out and the connectives that stand
between them, in their order: no chain and no group loses, repeats or moves one. Counting the fields
of the text therefore bounds the condition, and with it every pass over it, and the reader stops
before more groups are open than may be.

* `writtenRelations_phrase`, `writtenConnectives_phrase`: the tokens of a derivation and its
  condition;
* `groups_le_of_run`: a scan that observes the limits opens no more groups than it may;
* `parse_in_order`: the condition of a text against its tokens.
-/

namespace RecordFilter.Grammar

open RecordFilter.Condition Scan

/-! ## What tokens write out -/

/-- The relations that the tokens write out: a field, a comparison, or none for `eq`, and a
literal. -/
def writtenRelations : List Token → List (Comparison × String × Value)
  | .field f :: .comparison o :: .literal v :: ts => (o, f, v) :: writtenRelations ts
  | .field f :: .literal v :: ts => (.eq, f, v) :: writtenRelations ts
  | _ :: ts => writtenRelations ts
  | [] => []

/-- The connective that the token is. -/
def connective? : Token → Option Connective
  | .connective c => some c
  | _ => none

/-- The connectives among the tokens. -/
def writtenConnectives (ts : List Token) : List Connective := ts.filterMap connective?

theorem Expression.writtenRelations_phrase (e : Expression) (rest : List Token) :
    writtenRelations (e.phrase.tokens ++ rest) =
      e.phrase.condition.leaves ++ writtenRelations rest := by
  have hinherited : Inherited fun p => ∀ rest, writtenRelations (p.tokens ++ rest) =
      p.condition.leaves ++ writtenRelations rest := by
    refine ⟨?_, ?_, ?_⟩
    · intro field comparison literal rest
      cases comparison <;> rfl
    · intro p hp rest
      simp only [Phrase.group, List.cons_append, List.append_assoc, writtenRelations]
      exact hp ([.closeGroup] ++ rest)
    · intro c p q hp hq rest
      simp only [Phrase.join, List.append_assoc, hp, leaves]
      exact congrArg _ (hq rest)
  exact e.inherits hinherited rest

theorem Expression.writtenConnectives_phrase (e : Expression) :
    writtenConnectives e.phrase.tokens = e.phrase.condition.connectives := by
  have hinherited : Inherited fun p =>
      writtenConnectives p.tokens = p.condition.connectives := by
    refine ⟨?_, ?_, ?_⟩
    · intro field comparison literal
      cases comparison <;> rfl
    · intro p hp
      simp only [Phrase.group, writtenConnectives, List.filterMap_cons, List.filterMap_append,
        connective?, List.filterMap_nil, List.append_nil]
      exact hp
    · intro c p q hp hq
      simp only [Phrase.join, writtenConnectives, List.filterMap_cons, List.filterMap_append,
        connective?, connectives]
      exact congr (congrArg _ hp) (congrArg _ hq)
  exact e.inherits hinherited

theorem Expression.relations_phrase (e : Expression) :
    e.phrase.relations = e.phrase.tokens.countP isField := by
  have hreach := relations_eq (e.traversed 0 0)
  rwa [Nat.zero_add] at hreach

/-! ## Open groups -/

theorem groups_le_of_advance {s s' : Scan} {t : Token} (h : s.advance t = .ok s')
    (hs : s.groups ≤ maxNesting) : s'.groups ≤ maxNesting := by
  cases step_of_next (next_of_advance h) with
  | @openGroup g n =>
    by_contra hfull
    have hg : maxNesting ≤ g := Nat.le_of_lt_succ (Nat.not_le.mp hfull)
    rw [advance_openGroup_full hg] at h
    cases h
  | closeGroup => exact Nat.le_of_succ_le hs
  | _ => exact hs

/-- **A scan that observes the limits** keeps to the limit of open groups. -/
theorem groups_le_of_run : ∀ {ts : List Token} {s s' : Scan}, s.run ts = .ok s' →
    s.groups ≤ maxNesting → s'.groups ≤ maxNesting
  | [], s, s', h, hs => by
    cases h
    exact hs
  | t :: ts, s, s', h, hs => by
    cases ht : s.advance t with
    | error e =>
      rw [run_cons_error ht] at h
      cases h
    | ok s₁ =>
      rw [run_cons_ok ht] at h
      exact groups_le_of_run h (groups_le_of_advance ht hs)

theorem opensAtMost_of_run {ts : List Token} {s : Scan} (h : start.run ts = .ok s) :
    OpensAtMost maxNesting ts := by
  intro p hp
  obtain ⟨q, rfl⟩ := (List.mem_inits _ _).mp hp
  obtain ⟨s', hs', -⟩ := exists_run_of_append h
  rw [← groups_eq (reach_of_run hs')]
  exact groups_le_of_run hs' (Nat.zero_le _)

/-- While tokens are read that have a condition, no more groups are open than may be. -/
theorem opensAtMost_of_ofTokens {ts : List Token} (hne : ts ≠ []) (hend : .endOfInput ∉ ts)
    {c : Condition} (h : ofTokens (ts ++ [.endOfInput]) = .ok (some c)) :
    OpensAtMost maxNesting (ts ++ [.endOfInput]) := by
  cases hrun : start.run (ts ++ [.endOfInput]) with
  | error e =>
    rw [(ofTokens_eq_error_iff hne hend e).mpr hrun] at h
    cases h
  | ok s => exact opensAtMost_of_run hrun

/-! ## Texts -/

/-- A pass over a condition needs room for no more visits than there are relations. -/
theorem runWithin_of_relations_le {α : Type} (p : Pass α) {c : Condition} {n : Nat}
    (h : c.relations ≤ n) : p.runWithin n c = some (p.run c) :=
  p.runWithin_eq (Nat.le_trans c.depth_le_relations h)

/-- **What is read is what is written, within the limits.** The relations and the connectives of the
condition of a text are those that its tokens write out, in their order. There is a relation for
each field, and there are at most `maxRelations`; the tree is not higher than that, so that
evaluating, writing and giving back the condition end with room for `maxRelations` visits. Wherever
the tokens are cut, at most `maxNesting` groups are open. -/
theorem parse_in_order {ignoreCase : Bool} {text : String} {c : Condition}
    (h : Condition.parse ignoreCase text = .ok (some c)) :
    let ts := (TokenList.ofText text.toList ignoreCase).tokens
    c.leaves = writtenRelations ts ∧ c.connectives = writtenConnectives ts ∧
      c.relations = ts.countP isField ∧ c.relations ≤ maxRelations ∧ c.depth ≤ c.relations ∧
      (∀ fields, (evaluation fields).runWithin maxRelations c = some (c.holds fields)) ∧
      printing.runWithin maxRelations c = some c.text ∧
      release.runWithin maxRelations c = some () ∧ OpensAtMost maxNesting ts := by
  obtain ⟨e, hspells, -, hrelations, rfl⟩ := parse_eq_some_iff_spells.mp h
  have htext : TokenList.ofText text.toList ignoreCase =
      ⟨e.phrase.tokens ++ [.endOfInput], none⟩ := by
    rw [TokenList.ofText_eq, hspells]
    rfl
  rw [Condition.parse, htext] at h
  rw [htext]
  refine ⟨?_, ?_, ?_, hrelations, depth_le_relations _, fun fields => ?_, ?_, ?_, ?_⟩
  · rw [e.writtenRelations_phrase]
    exact (List.append_nil _).symm
  · rw [writtenConnectives, List.filterMap_append]
    exact e.writtenConnectives_phrase.symm.trans (List.append_nil _).symm
  · rw [e.relations_condition, e.relations_phrase, List.countP_append]
    rfl
  · rw [runWithin_of_relations_le _ hrelations, run_evaluation]
  · rw [runWithin_of_relations_le _ hrelations, run_printing]
  · exact runWithin_of_relations_le _ hrelations
  · exact opensAtMost_of_ofTokens e.tokens_ne_nil e.endOfInput_not_mem h

/-- A condition with both connectives, groups in groups, and relations of all forms. -/
theorem parse_in_order_sample :
    let text := "((a 1 or b>='x y')) and (c neq 2 or (d \"and\" && e lt -1))"
    let ts := (TokenList.ofText text.toList false).tokens
    let c : Condition := .join .and
      (.join .or (.relation .eq "a" (.integer 1)) (.relation .geq "b" (.string "x y")))
      (.join .or (.relation .neq "c" (.integer 2))
        (.join .and (.relation .eq "d" (.string "and")) (.relation .lt "e" (.integer (-1)))))
    Condition.parse false text = .ok (some c) ∧
      c.leaves = writtenRelations ts ∧ c.connectives = writtenConnectives ts ∧
      c.relations = ts.countP isField ∧ c.relations ≤ maxRelations ∧ c.depth ≤ c.relations ∧
      (∀ fields, (evaluation fields).runWithin maxRelations c = some (c.holds fields)) ∧
      printing.runWithin maxRelations c = some c.text ∧
      release.runWithin maxRelations c = some () ∧ OpensAtMost maxNesting ts := by
  intro text ts c
  have hparse : Condition.parse false text = .ok (some c) := by decide +kernel
  exact ⟨hparse, parse_in_order hparse⟩

end RecordFilter.Grammar
