import Mathlib
import RecordFilter.Proofs.Grammar.Scan

/-!
# Faults

A token is at **fault** after what has been read when no sentence goes on with it, or when it takes
an expression beyond a limit. Each fault has an error that reports it.

* `Fault`: the faults and their errors;
* `advance_of_fault`, `fault_of_advance`: the errors of a step of a scan that observes the limits
  are those of the faults;
* `run_eq_error_iff`: such a scan stops at the first fault.
-/

namespace RecordFilter.Grammar

open RecordFilter.Condition Scan

/-! ## Faults -/

/-- The token is at fault after what has been read, and the error says so. -/
inductive Fault (read : List Token) (t : Token) : ParseError → Prop
  /-- An operand is due. -/
  | unexpectedToken (due : Viable (read ++ [.openGroup])) (stuck : ¬ Viable (read ++ [t])) :
    Fault read t (.unexpectedToken t)
  /-- A comparison or a literal is due after the field. -/
  | missingComparison {before : List Token} {field : String} (due : read = before ++ [.field field])
    (stuck : ¬ Viable (read ++ [t])) : Fault read t (.missingValue field t)
  /-- A literal is due after the field and the comparison. -/
  | missingLiteral {before : List Token} {field : String} {comparison : Comparison}
    (due : read = before ++ [.field field, .comparison comparison])
    (stuck : ¬ Viable (read ++ [t])) : Fault read t (.missingValue field t)
  /-- The expression of an open group is complete. -/
  | unclosedGroup (due : Viable (read ++ [.closeGroup])) (stuck : ¬ Viable (read ++ [t])) :
    Fault read t (.unclosedGroup t)
  /-- An expression is complete, and no group is open. -/
  | trailingInput (due : Viable (read ++ [.endOfInput])) (stuck : ¬ Viable (read ++ [t])) :
    Fault read t (.trailingInput t)
  /-- The token opens a group where an operand is due, and no more groups may be open. -/
  | nestingTooDeep (due : Viable (read ++ [t])) (opens : t = .openGroup)
    (full : maxNesting ≤ openGroups read) : Fault read t .nestingTooDeep
  /-- The token is a field where an operand is due, and there are no more relations to be had. -/
  | tooManyRelations {field : String} (due : Viable (read ++ [t])) (begins : t = .field field)
    (full : maxRelations ≤ read.countP isField) : Fault read t .tooManyRelations

/-- The error reports the fault of a token before which there is no other. -/
def FirstFault (ts : List Token) (e : ParseError) : Prop :=
  ∃ read t rest, ts = read ++ t :: rest ∧ Fault read t e ∧
    ∀ read' t' rest' e', ts = read' ++ t' :: rest' → read'.length < read.length →
      ¬ Fault read' t' e'

/-! ## A scan that observes the limits -/

namespace Scan

/-- The token may come next, but not within the limits. -/
def overrun? (s : Scan) (t : Token) : Option ParseError :=
  match s.due, t with
  | .operand, .openGroup => if maxNesting ≤ s.groups then some .nestingTooDeep else none
  | .operand, .field _ => if maxRelations ≤ s.relations then some .tooManyRelations else none
  | _, _ => none

/-- The error that reports a token which may not come next. -/
def blame (s : Scan) (t : Token) : ParseError :=
  match s.due with
  | .operand => .unexpectedToken t
  | .comparison f => .missingValue f t
  | .literal f => .missingValue f t
  | _ => if s.groups = 0 then .trailingInput t else .unclosedGroup t

/-- The state after the token, or why there is none. -/
def advance (s : Scan) (t : Token) : Except ParseError Scan :=
  match s.overrun? t with
  | some e => .error e
  | none =>
    match s.next? t with
    | some s' => .ok s'
    | none => .error (s.blame t)

/-- The state after the tokens, or the first error. -/
def run (s : Scan) : List Token → Except ParseError Scan
  | [] => .ok s
  | t :: ts =>
    match s.advance t with
    | .error e => .error e
    | .ok s' => s'.run ts

theorem run_cons_ok {s s' : Scan} {t : Token} (h : s.advance t = .ok s') (ts : List Token) :
    s.run (t :: ts) = s'.run ts := by
  rw [run, h]

theorem run_cons_error {s : Scan} {t : Token} {e : ParseError} (h : s.advance t = .error e)
    (ts : List Token) : s.run (t :: ts) = .error e := by
  rw [run, h]

theorem run_append_ok : ∀ {p : List Token} {s s' : Scan}, s.run p = .ok s' → ∀ q : List Token,
    s.run (p ++ q) = s'.run q
  | [], s, s', h, q => by
    cases h
    rfl
  | t :: p, s, s', h, q => by
    cases ht : s.advance t with
    | error e =>
      rw [run_cons_error ht] at h
      cases h
    | ok s₁ =>
      rw [run_cons_ok ht] at h
      rw [List.cons_append, run_cons_ok ht]
      exact run_append_ok h q

theorem exists_run_of_append : ∀ {p q : List Token} {s s' : Scan}, s.run (p ++ q) = .ok s' →
    ∃ s'', s.run p = .ok s'' ∧ s''.run q = .ok s'
  | [], q, s, s', h => ⟨s, rfl, h⟩
  | t :: p, q, s, s', h => by
    cases ht : s.advance t with
    | error e =>
      rw [List.cons_append, run_cons_error ht] at h
      cases h
    | ok s₁ =>
      rw [List.cons_append, run_cons_ok ht] at h
      rw [run_cons_ok ht]
      exact exists_run_of_append h

theorem next_of_advance {s s' : Scan} {t : Token} (h : s.advance t = .ok s') :
    s.next? t = some s' := by
  unfold advance at h
  split at h
  · cases h
  · split at h
    · next hs => cases h; exact hs
    · cases h

theorem reach_of_run : ∀ {p : List Token} {s s' : Scan}, s.run p = .ok s' → s.reach p = some s'
  | [], s, s', h => by
    cases h
    rfl
  | t :: p, s, s', h => by
    cases ht : s.advance t with
    | error e =>
      rw [run_cons_error ht] at h
      cases h
    | ok s₁ =>
      rw [run_cons_ok ht] at h
      rw [reach_cons, next_of_advance ht]
      exact reach_of_run h

/-- A scan that stops has passed over what is before the token at which it stops. -/
theorem exists_advance_of_run_error : ∀ {ts : List Token} {s : Scan} {e : ParseError},
    s.run ts = .error e →
      ∃ p t q s', ts = p ++ t :: q ∧ s.run p = .ok s' ∧ s'.advance t = .error e
  | t :: ts, s, e, h => by
    cases ht : s.advance t with
    | error e' =>
      rw [run_cons_error ht] at h
      cases h
      exact ⟨[], t, ts, s, rfl, rfl, ht⟩
    | ok s₁ =>
      rw [run_cons_ok ht] at h
      obtain ⟨p, t', q, s', rfl, hp, hadv⟩ := exists_advance_of_run_error h
      exact ⟨t :: p, t', q, s', rfl, by rw [run_cons_ok ht, hp], hadv⟩

theorem advance_openGroup {g n : Nat} (h : g < maxNesting) :
    advance ⟨.operand, g, n⟩ .openGroup = .ok ⟨.operand, g + 1, n⟩ := by
  have hover : overrun? ⟨.operand, g, n⟩ .openGroup = none := if_neg (Nat.not_le.mpr h)
  rw [advance, hover]
  rfl

theorem advance_openGroup_full {g n : Nat} (h : maxNesting ≤ g) :
    advance ⟨.operand, g, n⟩ .openGroup = .error .nestingTooDeep := by
  have hover : overrun? ⟨.operand, g, n⟩ .openGroup = some .nestingTooDeep := if_pos h
  rw [advance, hover]

theorem advance_field {g n : Nat} (h : n < maxRelations) (f : String) :
    advance ⟨.operand, g, n⟩ (.field f) = .ok ⟨.comparison f, g, n + 1⟩ := by
  have hover : overrun? ⟨.operand, g, n⟩ (.field f) = none := if_neg (Nat.not_le.mpr h)
  rw [advance, hover]
  rfl

theorem advance_field_full {g n : Nat} (h : maxRelations ≤ n) (f : String) :
    advance ⟨.operand, g, n⟩ (.field f) = .error .tooManyRelations := by
  have hover : overrun? ⟨.operand, g, n⟩ (.field f) = some .tooManyRelations := if_pos h
  rw [advance, hover]

theorem advance_connective (g n : Nat) (c : Connective) :
    advance ⟨.connective, g, n⟩ (.connective c) = .ok ⟨.operand, g, n⟩ := rfl

theorem advance_closeGroup (g n : Nat) :
    advance ⟨.connective, g + 1, n⟩ .closeGroup = .ok ⟨.connective, g, n⟩ := rfl

theorem advance_endOfInput (n : Nat) :
    advance ⟨.connective, 0, n⟩ .endOfInput = .ok ⟨.nothing, 0, n⟩ := rfl

theorem overrun_eq_none {s : Scan} {t : Token} (h : s.next? t = none) : s.overrun? t = none := by
  obtain ⟨due, g, n⟩ := s
  unfold overrun?
  split
  · next hdue => cases (show due = .operand from hdue); cases h
  · next hdue => cases (show due = .operand from hdue); cases h
  · rfl

theorem advance_stuck {s : Scan} {t : Token} (h : s.next? t = none) :
    s.advance t = .error (s.blame t) := by
  rw [advance, overrun_eq_none h, h]

end Scan

section Faults
variable {s : Scan} {p : List Token} {t : Token} {e : ParseError}

theorem viable_concat (h : start.reach p = some s) (t : Token) :
    Viable (p ++ [t]) ↔ ∃ s', Step s t s' := by
  rw [viable_iff, reach_concat h]
  constructor
  · rintro ⟨s', hs'⟩
    exact ⟨s', step_of_next hs'⟩
  · rintro ⟨s', hs'⟩
    exact ⟨s', by cases hs' <;> rfl⟩

theorem next_eq_none (h : start.reach p = some s) (ht : ¬ Viable (p ++ [t])) :
    s.next? t = none := by
  rw [viable_iff, reach_concat h] at ht
  exact Option.eq_none_iff_forall_ne_some.mpr fun s' hs' => ht ⟨s', hs'⟩

theorem advance_of_fault (h : start.reach p = some s) (hf : Fault p t e) :
    s.advance t = .error e := by
  cases hf with
  | unexpectedToken due stuck =>
    rw [advance_stuck (next_eq_none h stuck)]
    obtain ⟨s', hstep⟩ := (viable_concat h _).mp due
    cases hstep
    rfl
  | missingComparison due stuck =>
    rw [advance_stuck (next_eq_none h stuck)]
    subst due
    obtain ⟨s₀, -, hlast⟩ := exists_reach_of_append h
    obtain ⟨s₁, hs₁, hnil⟩ := Option.bind_eq_some_iff.mp hlast
    cases hnil
    cases step_of_next hs₁
    rfl
  | missingLiteral due stuck =>
    rw [advance_stuck (next_eq_none h stuck)]
    subst due
    obtain ⟨s₀, -, hlast⟩ := exists_reach_of_append h
    obtain ⟨s₁, hs₁, hlast⟩ := Option.bind_eq_some_iff.mp hlast
    obtain ⟨s₂, hs₂, hnil⟩ := Option.bind_eq_some_iff.mp hlast
    cases hnil
    cases step_of_next hs₁
    cases step_of_next hs₂
    rfl
  | unclosedGroup due stuck =>
    rw [advance_stuck (next_eq_none h stuck)]
    obtain ⟨s', hstep⟩ := (viable_concat h _).mp due
    cases hstep
    rfl
  | trailingInput due stuck =>
    rw [advance_stuck (next_eq_none h stuck)]
    obtain ⟨s', hstep⟩ := (viable_concat h _).mp due
    cases hstep
    rfl
  | nestingTooDeep due opens full =>
    subst opens
    rw [← groups_eq h] at full
    obtain ⟨s', hstep⟩ := (viable_concat h _).mp due
    cases hstep
    exact advance_openGroup_full full
  | tooManyRelations due begins full =>
    subst begins
    rw [← relations_eq h] at full
    obtain ⟨s', hstep⟩ := (viable_concat h _).mp due
    cases hstep
    exact advance_field_full full _

theorem fault_of_overrun (h : start.reach p = some s) (hdue : Viable (p ++ [t]))
    (hover : s.overrun? t = some e) : Fault p t e := by
  unfold overrun? at hover
  split at hover
  · split at hover
    · next hfull =>
      cases hover
      exact .nestingTooDeep hdue rfl (groups_eq h ▸ hfull)
    · cases hover
  · split at hover
    · next hfull =>
      cases hover
      exact .tooManyRelations hdue rfl (relations_eq h ▸ hfull)
    · cases hover
  · cases hover

/-- A token that may not come next is at fault, and what is due says how. -/
theorem fault_of_stuck (h : start.reach p = some s) (hend : .endOfInput ∉ p)
    (hstuck : ¬ Viable (p ++ [t])) : Fault p t (s.blame t) := by
  obtain ⟨due, g, n⟩ := s
  obtain ⟨q, hq, hreached⟩ := reached h
  cases due with
  | operand => exact .unexpectedToken ((viable_concat h _).mpr ⟨_, .openGroup⟩) hstuck
  | comparison f =>
    obtain ⟨l, -, hp⟩ := hreached
    exact .missingComparison (hp.trans (List.append_assoc q l _).symm) hstuck
  | literal f =>
    obtain ⟨l, c, -, hp⟩ := hreached
    exact .missingLiteral (hp.trans (List.append_assoc q l _).symm) hstuck
  | connective =>
    cases g with
    | zero => exact .trailingInput ((viable_concat h _).mpr ⟨_, .endOfInput⟩) hstuck
    | succ g => exact .unclosedGroup ((viable_concat h _).mpr ⟨_, .closeGroup⟩) hstuck
  | nothing =>
    obtain ⟨e', he'⟩ := hreached
    exact absurd (he' ▸ List.mem_append_right _ List.mem_cons_self) hend

theorem fault_of_advance (h : start.reach p = some s) (hend : .endOfInput ∉ p)
    (hadv : s.advance t = .error e) : Fault p t e := by
  cases hnext : s.next? t with
  | some s' =>
    have hdue : Viable (p ++ [t]) := (viable_concat h t).mpr ⟨s', step_of_next hnext⟩
    rw [advance, hnext] at hadv
    split at hadv
    · next e' hover =>
      cases hadv
      exact fault_of_overrun h hdue hover
    · cases hadv
  | none =>
    have hstuck : ¬ Viable (p ++ [t]) := by
      rw [viable_iff, reach_concat h, hnext]
      rintro ⟨s', hs'⟩
      cases hs'
    rw [advance_stuck hnext] at hadv
    cases hadv
    exact fault_of_stuck h hend hstuck

theorem exists_run_of_no_fault : ∀ (q p : List Token) (s : Scan), start.run p = .ok s →
    .endOfInput ∉ p ++ q →
    (∀ read t rest e, p ++ q = read ++ t :: rest → ¬ Fault read t e) →
    ∃ s', start.run (p ++ q) = .ok s'
  | [], p, s, hp, _, _ => ⟨s, by rw [List.append_nil, hp]⟩
  | t :: q, p, s, hp, hend, hnone => by
    cases ht : s.advance t with
    | error e =>
      have hend' : .endOfInput ∉ p := fun hmem => hend (List.mem_append_left _ hmem)
      exact absurd (fault_of_advance (reach_of_run hp) hend' ht) (hnone p t q e rfl)
    | ok s₁ =>
      have hp₁ : start.run (p ++ [t]) = .ok s₁ := by
        rw [run_append_ok hp, run_cons_ok ht]
        rfl
      rw [List.append_cons] at hend hnone ⊢
      exact exists_run_of_no_fault q _ s₁ hp₁ hend hnone

/-- **A scan stops at the first fault**, with the error that reports it. -/
theorem run_eq_error_iff {ts : List Token} (hend : .endOfInput ∉ ts) :
    start.run (ts ++ [.endOfInput]) = .error e ↔ FirstFault (ts ++ [.endOfInput]) e := by
  -- The end is the last token, so it does not stand before any other.
  have hbefore : ∀ {p t q}, ts ++ [.endOfInput] = p ++ t :: q → .endOfInput ∉ p := by
    intro p t q heq hmem
    rcases List.prefix_concat_iff.mp ⟨t :: q, heq.symm⟩ with rfl | hp
    · have := congrArg List.length heq
      simp at this
    · exact hend (List.IsPrefix.subset hp hmem)
  constructor
  · intro h
    obtain ⟨p, t, q, s, heq, hp, hadv⟩ := exists_advance_of_run_error h
    refine ⟨p, t, q, heq, fault_of_advance (reach_of_run hp) (hbefore heq) hadv, ?_⟩
    intro p' t' q' e' heq' hlt hf
    have hlonger : p' ++ [t'] <+: ts ++ [.endOfInput] := ⟨q', by
      rw [heq', List.append_assoc]
      rfl⟩
    have hlen : (p' ++ [t']).length ≤ p.length := by
      rw [List.length_append]
      exact hlt
    obtain ⟨r, rfl⟩ := List.prefix_of_prefix_length_le hlonger ⟨t :: q, heq.symm⟩ hlen
    rw [List.append_assoc] at hp
    obtain ⟨s', hp', hrest⟩ := exists_run_of_append hp
    rw [List.singleton_append, run_cons_error (advance_of_fault (reach_of_run hp') hf)] at hrest
    cases hrest
  · rintro ⟨p, t, q, heq, hf, hnone⟩
    have hclear : ∀ p' t' q' e', [] ++ p = p' ++ t' :: q' → ¬ Fault p' t' e' := by
      intro p' t' q' e' hp'
      refine hnone p' t' (q' ++ t :: q) e' ?_ ?_
      · rw [heq, show p = _ from hp', List.append_assoc]
        rfl
      · rw [show p = _ from hp', List.length_append]
        simp
    obtain ⟨s, hs : start.run p = .ok s⟩ :=
      exists_run_of_no_fault p [] start rfl (hbefore heq) hclear
    rw [heq, run_append_ok hs, run_cons_error (advance_of_fault (reach_of_run hs) hf)]

end Faults

end RecordFilter.Grammar
