import Mathlib
import RecordFilter.Proofs.Grammar.Fault
import RecordFilter.Proofs.Grammar.Recognition

/-!
# The first fault decides

The readers take the tokens in the order of a scan that observes the limits: a reader that succeeds
has passed over tokens that the scan passes over, and one that fails does so at the token at which
the scan stops, with the same error. So the error of a text is that of its first fault.

* `operand_follows`, `chain_follows`, `expression_follows`: the readers and the scan;
* `ofTokens_eq_error_iff`: the tokens of a text have the error of a scan;
* `parse_error_iff_firstFault`: the error of a text.
-/

namespace RecordFilter.Grammar

open RecordFilter.Condition Scan

/-- The scan of the tokens ends as the reading of them does: with the same error, or where an
expression is complete in `g` open groups and the reader has left off. -/
def Agrees (s : Scan) (ts : List Token) (g : Nat) (ends : Token → Prop) :
    Except ParseError (Condition × Position) → Prop
  | .error e => s.run ts = .error e
  | .ok (_, q) => s.run ts = run ⟨.connective, g, q.relations⟩ q.rest ∧
      .endOfInput ∈ q.rest ∧ ends (upcoming q.rest) ∧ q.rest.length ≤ ts.length

/-- What agrees with a scan from a later place agrees with the scan that comes by it. -/
theorem Agrees.of_run {s s' : Scan} {ts ts' : List Token} {g : Nat} {ends : Token → Prop}
    {result : Except ParseError (Condition × Position)} (h : Agrees s' ts' g ends result)
    (hrun : s.run ts = s'.run ts') (hlen : ts'.length ≤ ts.length) : Agrees s ts g ends result := by
  cases result with
  | error e => exact hrun.trans h
  | ok res =>
    obtain ⟨hrest, hend, hq, hlen'⟩ := h
    exact ⟨hrun.trans hrest, hend, hq, Nat.le_trans hlen' hlen⟩

/-- The reader of what stands in `g` open groups agrees with the scan. -/
def Follows (r : Reader) (g : Nat) (ends : Token → Prop) : Prop :=
  ∀ ts n, .endOfInput ∈ ts → Agrees ⟨.operand, g, n⟩ ts g ends (r ⟨ts, n⟩)

/-- The reader of what stands in one more group agrees with the scan, which reads its opening. -/
def FollowsInGroup (r : Reader) (g : Nat) : Prop :=
  ∀ ts n, .endOfInput ∈ ts →
    Agrees ⟨.operand, g, n⟩ (.openGroup :: ts) (g + 1) endsExpression (r ⟨ts, n⟩)

/-! ## Chains -/

section Chains
variable {item : Reader} {ends ends' : Token → Prop} {c : Connective} {g : Nat}

theorem chainAfter_follows (hitem : Follows item g ends)
    (hends : ∀ t, ends t → t ≠ .connective c → ends' t) : ∀ (bound : Nat) (left : Condition)
      (ts : List Token) (n : Nat), .endOfInput ∈ ts → ends (upcoming ts) → ts.length ≤ bound →
      Agrees ⟨.connective, g, n⟩ ts g ends' (chainAfter c item bound left ⟨ts, n⟩) := by
  intro bound
  induction bound with
  | zero =>
    intro left ts n hend _ hlen
    rw [List.length_eq_zero_iff.mp (Nat.le_zero.mp hlen)] at hend
    cases hend
  | succ bound ih =>
    intro left ts n hend hts hlen
    by_cases hc : upcoming ts = .connective c
    · cases ts with
      | nil => cases hend
      | cons t ts =>
        cases (show t = _ from hc)
        have hend' : .endOfInput ∈ ts := by simpa using hend
        have hread := hitem ts n hend'
        rw [chainAfter_connective]
        cases hi : item ⟨ts, n⟩ with
        | error e =>
          rw [hi] at hread
          exact (run_cons_ok rfl ts).trans hread
        | ok res =>
          obtain ⟨right, q⟩ := res
          rw [hi] at hread
          obtain ⟨hrun, hendq, hq, hlenq⟩ := hread
          have hlen' : q.rest.length ≤ bound := by
            rw [List.length_cons] at hlen
            omega
          exact (ih (.join c left right) q.rest q.relations hendq hq hlen').of_run
            ((run_cons_ok rfl ts).trans hrun) (Nat.le_succ_of_le hlenq)
    · rw [chainAfter_stop hc]
      exact ⟨rfl, hend, hends _ hts hc, Nat.le_refl _⟩

theorem chain_follows (hitem : Follows item g ends)
    (hends : ∀ t, ends t → t ≠ .connective c → ends' t) : Follows (chain c item) g ends' := by
  intro ts n hend
  have hread := hitem ts n hend
  unfold chain
  cases hi : item ⟨ts, n⟩ with
  | error e =>
    rw [hi] at hread
    exact hread
  | ok res =>
    obtain ⟨left, q⟩ := res
    rw [hi] at hread
    obtain ⟨hrun, hendq, hq, hlenq⟩ := hread
    exact (chainAfter_follows hitem hends q.rest.length left q.rest q.relations hendq hq
      (Nat.le_refl _)).of_run hrun hlenq

end Chains

/-! ## Operands -/

/-- After the field of a relation, and after its comparison, the reader of the literal agrees with
the scan. -/
theorem literalOf_follows {due : Due} {f : String} {g n : Nat} {ts : List Token}
    (hdue : due = .literal f ∨ due = .comparison f ∧ ∀ c, upcoming ts ≠ .comparison c)
    (hend : .endOfInput ∈ ts) (c : Comparison) :
    Agrees ⟨due, g, n + 1⟩ ts g anyToken (literalOf f c ⟨ts, n⟩) := by
  cases ts with
  | nil => cases hend
  | cons t ts =>
    rcases hdue with rfl | ⟨rfl, hts⟩
    · cases t with
      | literal v => exact ⟨run_cons_ok rfl ts, by simpa using hend, trivial, Nat.le_succ _⟩
      | _ => exact run_cons_error rfl ts
    · cases t with
      | literal v => exact ⟨run_cons_ok rfl ts, by simpa using hend, trivial, Nat.le_succ _⟩
      | comparison c => exact absurd rfl (hts c)
      | _ => exact run_cons_error rfl ts

theorem relationOf_follows {g n : Nat} {ts : List Token} (hend : .endOfInput ∈ ts) (f : String) :
    Agrees ⟨.operand, g, n⟩ (.field f :: ts) g anyToken (relationOf f ⟨ts, n⟩) := by
  rcases Nat.lt_or_ge n maxRelations with hn | hn
  · have hfield := run_cons_ok (advance_field (g := g) hn f)
    by_cases hts : ∃ c, upcoming ts = .comparison c
    · obtain ⟨c, hts⟩ := hts
      cases ts with
      | nil => cases hts
      | cons t ts =>
        cases (show t = _ from hts)
        rw [relationOf_comparison hn]
        refine (literalOf_follows (Or.inl rfl) (by simpa using hend) c).of_run
          ((hfield _).trans (run_cons_ok rfl ts)) ?_
        exact Nat.le_succ_of_le (Nat.le_succ _)
    · rw [relationOf_implicit hn f (not_exists.mp hts)]
      exact (literalOf_follows (Or.inr ⟨rfl, not_exists.mp hts⟩) hend .eq).of_run (hfield ts)
        (Nat.le_succ _)
  · rw [relationOf_full hn]
    exact run_cons_error (advance_field_full hn f) ts

theorem operand_follows {group : Reader} {g : Nat} (hgroup : FollowsInGroup group g) :
    Follows (operand group) g anyToken := by
  intro ts n hend
  cases ts with
  | nil => cases hend
  | cons t ts =>
    cases t with
    | openGroup =>
      have hread := hgroup ts n (by simpa using hend)
      unfold operand
      dsimp only
      cases hi : group ⟨ts, n⟩ with
      | error e =>
        rw [hi] at hread
        exact hread
      | ok res =>
        obtain ⟨inner, q⟩ := res
        rw [hi] at hread
        obtain ⟨hrun, hendq, hq, hlenq⟩ := hread
        obtain ⟨rest, m⟩ := q
        cases rest with
        | nil => cases hendq
        | cons t' rest =>
          cases t' with
          | closeGroup =>
            exact ⟨hrun.trans (run_cons_ok rfl rest), by simpa using hendq, trivial,
              Nat.le_of_succ_le hlenq⟩
          | connective c => exact absurd rfl (hq c)
          | _ => exact hrun.trans (run_cons_error rfl rest)
    | field f => exact relationOf_follows (by simpa using hend) f
    | _ => exact run_cons_error rfl ts

/-! ## Expressions -/

theorem disjunction_follows {group : Reader} {g : Nat} (hgroup : FollowsInGroup group g) :
    Follows (disjunction group) g endsExpression := by
  have hconjunction : Follows (conjunction group) g endsConjunction :=
    chain_follows (operand_follows hgroup) fun t _ ht => ht
  refine chain_follows hconjunction fun t hand hor c => ?_
  cases c with
  | and => exact hand
  | or => exact hor

theorem tooDeep_follows {g : Nat} (hg : maxNesting ≤ g) : FollowsInGroup tooDeep g :=
  fun ts _ _ => run_cons_error (advance_openGroup_full hg) ts

theorem Follows.inGroup {r : Reader} {g : Nat} (h : Follows r (g + 1) endsExpression)
    (hg : g < maxNesting) : FollowsInGroup r g :=
  fun ts n hend => (h ts n hend).of_run (run_cons_ok (advance_openGroup hg) ts) (Nat.le_succ _)

/-- The reader of expressions stops where the scan does, as long as the levels left and the groups
open make up the limit. -/
theorem expression_follows : ∀ (levels g : Nat), g + levels = maxNesting →
    Follows (expression levels) g endsExpression
  | 0, g, hg => disjunction_follows (tooDeep_follows (by omega))
  | levels + 1, g, hg =>
    disjunction_follows ((expression_follows levels (g + 1) (by omega)).inGroup (by omega))

/-! ## Texts -/

theorem ofTokens_eq_error_iff {ts : List Token} (hne : ts ≠ []) (hend : .endOfInput ∉ ts)
    (e : ParseError) :
    ofTokens (ts ++ [.endOfInput]) = .error e ↔ start.run (ts ++ [.endOfInput]) = .error e := by
  rw [ofTokens, if_neg (upcoming_append_ne_end hne hend _)]
  have hread := expression_follows maxNesting 0 (Nat.zero_add _) (ts ++ [.endOfInput]) 0
    (List.mem_append_right _ List.mem_cons_self)
  cases hexp : expression maxNesting ⟨ts ++ [.endOfInput], 0⟩ with
  | error e' =>
    rw [hexp] at hread
    rw [show start.run _ = _ from hread]
    exact ⟨fun h => by cases h; rfl, fun h => by cases h; rfl⟩
  | ok res =>
    obtain ⟨c, rest, n⟩ := res
    rw [hexp] at hread
    obtain ⟨hrun, hendq, hq, -⟩ := hread
    rw [show start.run _ = _ from hrun]
    cases rest with
    | nil => cases hendq
    | cons t rest =>
      cases t with
      | endOfInput =>
        obtain ⟨d, hrest, -⟩ := expression_sound maxNesting _ _ _ hexp
        have hnil := ((List.append_cons_inj_of_notMem hend List.not_mem_nil).mp hrest).2.2
        rw [← hnil, run_cons_ok (advance_endOfInput n)]
        constructor
        · intro h
          cases h
        · intro h
          cases h
      | connective c' => exact absurd rfl (hq c')
      | _ =>
        rw [run_cons_error rfl]
        exact ⟨fun h => by cases h; rfl, fun h => by cases h; rfl⟩

theorem ofTokens_ne_none {ts : List Token} (hne : ts ≠ []) (hend : .endOfInput ∉ ts) :
    ofTokens (ts ++ [.endOfInput]) ≠ .ok none := by
  rw [ofTokens, if_neg (upcoming_append_ne_end hne hend _)]
  intro h
  split at h
  · cases h
  · split at h
    · cases h
    · cases h

theorem ofTokens_eq_error_iff_firstFault {ts : List Token} (hne : ts ≠ [])
    (hend : .endOfInput ∉ ts) (e : ParseError) :
    ofTokens (ts ++ [.endOfInput]) = .error e ↔ FirstFault (ts ++ [.endOfInput]) e :=
  (ofTokens_eq_error_iff hne hend e).trans (run_eq_error_iff hend)

theorem ofTokens_ne_unexpectedCharacter {ts : List Token} (hend : .endOfInput ∉ ts)
    (stray : StrayChar) : ofTokens (ts ++ [.endOfInput]) ≠ .error (.unexpectedCharacter stray) := by
  intro h
  rcases List.eq_nil_or_concat ts with rfl | ⟨init, last, hts⟩
  · cases h
  · have hne : ts ≠ [] := by simp [hts]
    obtain ⟨read, t, rest, -, hfault, -⟩ := (ofTokens_eq_error_iff_firstFault hne hend _).mp h
    cases hfault

theorem parse_eq_unexpectedCharacter_iff (ignoreCase : Bool) (text : String) (stray : StrayChar) :
    Condition.parse ignoreCase text = .error (.unexpectedCharacter stray) ↔
      (TokenList.ofText text.toList ignoreCase).stray = some stray := by
  have hend : .endOfInput ∉ (Lexeme.readAll ignoreCase false text.toList).1 :=
    Lexeme.endOfInput_not_mem_readAll _ _ _
  rw [Condition.parse, TokenList.ofText_eq]
  dsimp only
  split
  · next stray' hstray =>
    rw [hstray]
    simp
  · next hstray =>
    rw [hstray]
    constructor
    · intro h
      exact absurd h (ofTokens_ne_unexpectedCharacter hend stray)
    · intro h
      cases h

/-- Tokens that spell something have a condition when they have no error. -/
theorem exists_ofTokens_eq_some {ts : List Token} (hne : ts ≠ []) (hend : .endOfInput ∉ ts) :
    (∃ c, ofTokens (ts ++ [.endOfInput]) = .ok (some c)) ↔
      ∀ e, ofTokens (ts ++ [.endOfInput]) ≠ .error e := by
  have hnone := ofTokens_ne_none hne hend
  cases hparse : ofTokens (ts ++ [.endOfInput]) with
  | error e => simp
  | ok found =>
    cases found with
    | none => exact absurd hparse hnone
    | some c => simp

/-- **The error reported is the first thing that goes wrong.** A text has the error of its stray
character, whatever stands before it. A text without one that has tokens has the error of the first
token at fault, and it has a condition when no token is. -/
theorem parse_error_iff_firstFault (ignoreCase : Bool) (text : String) :
    (∀ stray, Condition.parse ignoreCase text = .error (.unexpectedCharacter stray) ↔
      (TokenList.ofText text.toList ignoreCase).stray = some stray) ∧
    ∀ ts, ts ≠ [] → TokenList.ofText text.toList ignoreCase = ⟨ts ++ [.endOfInput], none⟩ →
      (∀ e, Condition.parse ignoreCase text = .error e ↔ FirstFault (ts ++ [.endOfInput]) e) ∧
      ((∃ c, Condition.parse ignoreCase text = .ok (some c)) ↔
        ∀ e, ¬ FirstFault (ts ++ [.endOfInput]) e) := by
  refine ⟨parse_eq_unexpectedCharacter_iff ignoreCase text, ?_⟩
  intro ts hne htext
  have hend : .endOfInput ∉ ts := TokenList.endOfInput_not_mem (congrArg TokenList.tokens htext)
  have hparse : Condition.parse ignoreCase text = ofTokens (ts ++ [.endOfInput]) := by
    rw [Condition.parse, htext]
  have hfault := ofTokens_eq_error_iff_firstFault hne hend
  rw [hparse]
  refine ⟨hfault, ?_⟩
  simp only [← hfault]
  exact exists_ofTokens_eq_some hne hend

/-- The tokens of `(a 1 b`. -/
def unfinishedTokens : List Token :=
  [.openGroup, .field "a", .literal (.integer 1), .field "b"]

theorem firstFault_of_unfinished :
    TokenList.ofText "(a 1 b".toList false = ⟨unfinishedTokens ++ [.endOfInput], none⟩ ∧
      unfinishedTokens ≠ [] ∧
      FirstFault (unfinishedTokens ++ [.endOfInput]) (.unclosedGroup (.field "b")) := by
  have htext : TokenList.ofText "(a 1 b".toList false =
      ⟨unfinishedTokens ++ [.endOfInput], none⟩ := rfl
  have hne : unfinishedTokens ≠ [] := by decide
  have hfirst := ((parse_error_iff_firstFault false "(a 1 b").2 _ hne htext).1
  exact ⟨htext, hne, (hfirst _).mp (by decide +kernel)⟩

end RecordFilter.Grammar
