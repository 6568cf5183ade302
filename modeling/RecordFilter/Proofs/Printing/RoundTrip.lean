import Mathlib
import RecordFilter.Proofs.Grammar.FirstFault
import RecordFilter.Proofs.Printing.Chain

/-!
# Conditions are read back

The text of a condition is read back as the same condition, literal by literal, unless one of its
fields or literals cannot be written or the condition is beyond a limit. The text opens a
parenthesis for every level of connectives, so it can be nested too deep when the expression that
the condition was read from is not: chains need no parentheses of their own.

* `parse_text_iff`: what is read from the text of a condition that can be written;
* `parse_text_equals_iff`: exactly which conditions are read back;
* `parse_text_of_parse`: what is read from the text of a condition that was itself read.
-/

namespace RecordFilter

/-! ## Equality -/

theorem Binary64.isFinite_of_compare {x y : Binary64} (hx : x.isFinite = true)
    (h : x.compare y = some .eq) : y.isFinite = true := by
  cases x with
  | nan => cases hx
  | signed s r =>
    cases y with
    | nan => cases h
    | signed s' r' =>
      have hkey : key s r = key s' r' := Std.LawfulEqOrd.compare_eq_iff_eq.mp (Option.some.inj h)
      have hval : r.val = r'.val := by
        unfold key at hkey
        split at hkey <;> split at hkey <;> omega
      have hrank : r = r' := Fin.ext hval
      subst hrank
      exact hx

namespace Value

theorem writable_of_equals {v w : Value} (hv : v.Writable) (h : v.equals w = true) :
    w.Writable := by
  rw [equals_iff_compare] at h
  cases w with
  | integer n => trivial
  | string t =>
    cases v with
    | string s =>
      have heq : s = t := Std.LawfulEqOrd.compare_eq_iff_eq.mp (Option.some.inj h)
      exact heq ▸ hv
    | integer n => cases h
    | float x => cases h
  | float y =>
    cases v with
    | string s => cases h
    | integer n => exact Binary64.isFinite_of_compare (Binary64.isFinite_ofInt n) h
    | float x => exact Binary64.isFinite_of_compare hv h

theorem equals_self {v : Value} (hv : v.Writable) : v.equals v = true := by
  rw [equals_iff_compare]
  cases v with
  | string s => exact congrArg some (Std.LawfulEqOrd.compare_eq_iff_eq.mpr rfl)
  | integer n => exact congrArg some (Std.LawfulEqOrd.compare_eq_iff_eq.mpr rfl)
  | float x =>
    have hx : x ≠ .nan := by
      rintro rfl
      cases hv
    exact (Binary64.compare_self x).trans (if_neg hx)

end Value

namespace Condition

variable {ignoreCase : Bool}

theorem writable_of_equals : ∀ {c d : Condition}, c.equals d = true → c.Writable ignoreCase →
    d.Writable ignoreCase ∧ d.relations = c.relations
  | .relation o f v, .relation o' f' v', h, ⟨hf, hv⟩ => by
    simp only [equals, Bool.and_eq_true, beq_iff_eq] at h
    exact ⟨⟨h.1.2 ▸ hf, Value.writable_of_equals hv h.2⟩, rfl⟩
  | .join o l r, .join o' l' r', h, ⟨hl, hr⟩ => by
    simp only [equals, Bool.and_eq_true] at h
    obtain ⟨hl', hleft⟩ := writable_of_equals h.1.2 hl
    obtain ⟨hr', hright⟩ := writable_of_equals h.2 hr
    refine ⟨⟨hl', hr'⟩, ?_⟩
    rw [relations, relations, hleft, hright]
  | .relation _ _ _, .join _ _ _, h, _ => by cases h
  | .join _ _ _, .relation _ _ _, h, _ => by cases h

theorem equals_self : ∀ {c : Condition}, c.Writable ignoreCase → c.equals c = true
  | .relation _ _ _, ⟨_, hv⟩ => by simp [equals, Value.equals_self hv]
  | .join _ _ _, ⟨hl, hr⟩ => by simp [equals, equals_self hl, equals_self hr]

end Condition

namespace Grammar

open RecordFilter.Condition Scan

variable {ignoreCase : Bool} {c : Condition}

/-! ## Reading the text -/

theorem writable_of_parse {text : String} (h : Condition.parse ignoreCase text = .ok (some c)) :
    c.Writable ignoreCase ∧ c.relations ≤ maxRelations := by
  obtain ⟨-, e, htokens, -, hrelations, rfl⟩ := parse_eq_some_iff.mp h
  refine ⟨e.writable fun t ht => ?_, e.relations_condition ▸ hrelations⟩
  rw [htokens] at ht
  exact Lexeme.forall_mem_readAll (fun aw _ _ _ hr => Lexeme.writable_of_toToken hr _ aw) _ _ t ht

theorem readAll_text_eq (hc : c.Writable ignoreCase) :
    Lexeme.readAll ignoreCase false c.text.toList = (c.tokens, []) := by
  have hnil : Lexeme.readAll ignoreCase false [] = ([], []) := Lexeme.readAll_blank rfl
  have hend : Lexeme.EndsWord [] := nofun
  have hread := Lexeme.readAll_text hc hend
  rw [List.append_nil, hnil] at hread
  simpa [Lexeme.prepend] using hread

/-- The text of a condition that can be written is read back as the condition, within the limits. -/
theorem parse_text_iff (hc : c.Writable ignoreCase) (c' : Condition) :
    Condition.parse ignoreCase c.text = .ok (some c') ↔
      c' = c ∧ c.depth ≤ maxNesting + 1 ∧ c.relations ≤ maxRelations := by
  have hdepth := c.depth_pos
  rw [parse_eq_some_iff, readAll_text_eq hc]
  constructor
  · rintro ⟨-, e, htokens, hnesting, hrelations, rfl⟩
    have hcanonical : e = (canonical c).alone := unambiguous (by
      rw [htokens, phrase_alone, phrase_canonical])
    subst hcanonical
    rw [phrase_alone, phrase_canonical] at hnesting hrelations ⊢
    dsimp only at hnesting hrelations ⊢
    exact ⟨rfl, by omega, hrelations⟩
  · rintro ⟨rfl, hnesting, hrelations⟩
    refine ⟨rfl, (canonical c').alone, ?_⟩
    rw [phrase_alone, phrase_canonical]
    dsimp only
    exact ⟨rfl, by omega, hrelations, rfl⟩

/-- **Exactly which conditions are read back.** The text of a condition is read as an equal one just
when its fields and literals can be written and it keeps to the limits; and what is read then is the
condition itself, not merely an equal one. -/
theorem parse_text_equals_iff (ignoreCase : Bool) (c c' : Condition) :
    (Condition.parse ignoreCase c.text = .ok (some c') ∧ c'.equals c = true) ↔
      c' = c ∧ c.Writable ignoreCase ∧ c.depth ≤ maxNesting + 1 ∧ c.relations ≤ maxRelations := by
  constructor
  · rintro ⟨hparse, hequals⟩
    -- Whatever the text looks like, what was read from it can be written, and equal literals and
    -- fields can be written together.
    have hc := (writable_of_equals hequals (writable_of_parse hparse).1).1
    obtain ⟨rfl, hlimits⟩ := (parse_text_iff hc c').mp hparse
    exact ⟨rfl, hc, hlimits⟩
  · rintro ⟨rfl, hc, hlimits⟩
    exact ⟨(parse_text_iff hc c').mpr ⟨rfl, hlimits⟩, equals_self hc⟩

/-! ## Texts that are nested too deep -/

/-- A scan passes over the text of a condition for whose parentheses there is room. -/
theorem run_tokens : ∀ (c : Condition) (g n : Nat) (rest : List Token),
    g + c.depth ≤ maxNesting + 1 → n + c.relations ≤ maxRelations →
      run ⟨.operand, g, n⟩ (c.tokens ++ rest) = run ⟨.connective, g, n + c.relations⟩ rest
  | .relation c f v, g, n, rest, _, hn => by
    rw [Condition.relations] at hn ⊢
    rw [Condition.tokens, List.cons_append, run_cons_ok (advance_field hn f)]
    rfl
  | .join c l r, g, n, rest, hg, hn => by
    have hl := l.depth_pos
    rw [Condition.depth] at hg
    rw [Condition.relations] at hn ⊢
    rw [Condition.tokens, List.cons_append, List.append_assoc,
      run_cons_ok (advance_openGroup (by omega)), run_tokens l (g + 1) n _ (by omega) (by omega)]
    rw [List.cons_append, List.append_assoc, run_cons_ok (advance_connective _ _ _),
      run_tokens r (g + 1) _ _ (by omega) (by omega), List.singleton_append,
      run_cons_ok (advance_closeGroup _ _), Nat.add_assoc]

/-- A scan stops in the text of a condition for whose parentheses there is no room. -/
theorem run_tokens_of_deep : ∀ (c : Condition) (g n : Nat) (rest : List Token),
    g ≤ maxNesting → maxNesting + 1 < g + c.depth → n + c.relations ≤ maxRelations →
      run ⟨.operand, g, n⟩ (c.tokens ++ rest) = .error .nestingTooDeep
  | .relation c f v, g, n, rest, hg, hdeep, _ => by
    rw [Condition.depth] at hdeep
    omega
  | .join c l r, g, n, rest, hg, hdeep, hn => by
    rw [Condition.depth] at hdeep
    rw [Condition.relations] at hn
    rw [Condition.tokens, List.cons_append, List.append_assoc]
    rcases Nat.lt_or_ge g maxNesting with hroom | hfull
    · rw [run_cons_ok (advance_openGroup hroom)]
      -- There is no room in the left part, or the scan passes it and there is none in the right.
      rcases Nat.lt_or_ge (maxNesting + 1) (g + 1 + l.depth) with hleft | hleft
      · exact run_tokens_of_deep l (g + 1) n _ hroom hleft (by omega)
      · rw [run_tokens l (g + 1) n _ hleft (by omega), List.cons_append, List.append_assoc,
          run_cons_ok (advance_connective _ _ _)]
        exact run_tokens_of_deep r (g + 1) _ _ hroom (by omega) (by omega)
    · exact run_cons_error (advance_openGroup_full hfull) _

theorem parse_text_of_deep (hc : c.Writable ignoreCase) (hrelations : c.relations ≤ maxRelations)
    (hdeep : maxNesting + 1 < c.depth) :
    Condition.parse ignoreCase c.text = .error .nestingTooDeep := by
  have htokens : (canonical c).alone.phrase.tokens = c.tokens := by
    rw [phrase_alone, phrase_canonical]
  have hne : c.tokens ≠ [] := htokens ▸ (canonical c).alone.tokens_ne_nil
  have hend : .endOfInput ∉ c.tokens := htokens ▸ (canonical c).alone.endOfInput_not_mem
  have hrun : start.run (c.tokens ++ [.endOfInput]) = .error .nestingTooDeep :=
    run_tokens_of_deep c 0 0 _ (Nat.zero_le _) (by omega) (by omega)
  rw [Condition.parse, TokenList.ofText_eq, readAll_text_eq hc]
  exact (ofTokens_eq_error_iff hne hend _).mpr hrun

/-- **What was read is read back, as long as its text is not nested too deep.** The text of a
condition read from an expression spells the condition if the tree is at most one level higher than
the parentheses allow, and is refused otherwise, whatever the parentheses of the expression. -/
theorem parse_text_of_parse {ignoreCase : Bool} {text : String} {c : Condition}
    (h : Condition.parse ignoreCase text = .ok (some c)) :
    (c.depth ≤ maxNesting + 1 →
      Condition.parse ignoreCase c.text = .ok (some c) ∧ c.equals c = true) ∧
    (maxNesting + 1 < c.depth → Condition.parse ignoreCase c.text = .error .nestingTooDeep) := by
  obtain ⟨hc, hrelations⟩ := writable_of_parse h
  constructor
  · intro hdepth
    exact ⟨(parse_text_iff hc c).mpr ⟨rfl, hdepth, hrelations⟩, equals_self hc⟩
  · intro hdeep
    exact parse_text_of_deep hc hrelations hdeep

/-- The relation `a eq 1`. -/
def sampleRelation : Condition := .relation .eq "a" (.integer 1)

theorem writable_sampleRelation : sampleRelation.Writable false := by
  have hword : "a".toList.all Lexeme.isWordChar = true := rfl
  exact ⟨⟨by decide, List.all_eq_true.mp hword, rfl, rfl⟩, trivial⟩

/-- A chain of 258 relations is read, but its text is nested too deep; a relation alone is read
back. -/
theorem parse_text_of_chain :
    let many := List.replicate 257 sampleRelation
    let c := joined .and sampleRelation many
    (Condition.parse false (chainText .and sampleRelation many) = .ok (some c) ∧
      maxNesting + 1 < c.depth ∧ Condition.parse false c.text = .error .nestingTooDeep) ∧
    (Condition.parse false "a eq 1" = .ok (some sampleRelation) ∧
      sampleRelation.depth ≤ maxNesting + 1 ∧
      Condition.parse false sampleRelation.text = .ok (some sampleRelation) ∧
      sampleRelation.equals sampleRelation = true) := by
  intro many c
  have hmany : ∀ d ∈ many, d = sampleRelation := fun d hd => List.eq_of_mem_replicate hd
  have hchain : Condition.parse false (chainText .and sampleRelation many) = .ok (some c) := by
    refine parse_chainText writable_sampleRelation ?_ ?_ ?_
    · intro d hd
      rw [hmany d hd]
      exact writable_sampleRelation
    · intro d hd
      have hd' : d = sampleRelation := (List.mem_cons.mp hd).elim id (hmany d)
      rw [hd']
      decide
    · rw [List.map_replicate, List.sum_replicate_nat]
      decide
  have hdeep : maxNesting + 1 < c.depth := by
    have hdepth := depth_add_length_le .and many sampleRelation
    rw [List.length_replicate] at hdepth
    exact Nat.lt_of_lt_of_le (by decide) hdepth
  have halone : Condition.parse false "a eq 1" = .ok (some sampleRelation) := rfl
  have hlevel : sampleRelation.depth ≤ maxNesting + 1 := by decide
  exact ⟨⟨hchain, hdeep, (parse_text_of_parse hchain).2 hdeep⟩,
    ⟨halone, hlevel, (parse_text_of_parse halone).1 hlevel⟩⟩

end Grammar

end RecordFilter
