import Mathlib
import RecordFilter.Evaluator
import RecordFilter.Proofs.Grammar.FirstFault

/-!
# What an evaluator remembers

An evaluator can be built anew and asked about records in any order. It remembers its last build and
nothing else: neither the builds before it, whether they failed or not, nor what it has been asked.
It has a condition when that build was one of a text that can be read and is not blank. No condition
is met by a record without fields, so that such a record tells whether there is one.

* `Condition.parse_eq_none_iff`: the texts that can be read and have no condition;
* `Condition.holds_empty`: no condition is met by a record without fields;
* `answers_lastBuild`: an evaluator after any calls is the one that its last build leaves;
* `answers_reflect`: what can be seen of an evaluator after any calls.
-/

namespace RecordFilter

/-! ## Conditions of texts -/

theorem Lexeme.readAll_eq_nil_iff {ignoreCase awaitsLiteral : Bool} {text : List Char} :
    readAll ignoreCase awaitsLiteral text = ([], []) ↔ Text.isBlankText text = true := by
  rw [← Text.trimLeft_eq_nil_iff]
  refine ⟨fun h => ?_, readAll_blank⟩
  cases ht : Text.trimLeft text with
  | nil => rfl
  | cons c cs =>
    cases hr : read? (c :: cs) with
    | none =>
      rw [readAll_stray ht hr] at h
      cases h
    | some found =>
      rw [readAll_lexeme ht hr] at h
      cases h

/-- **The texts without a condition** that can be read are the blank ones. -/
theorem Condition.parse_eq_none_iff (ignoreCase : Bool) (text : String) :
    parse ignoreCase text = .ok none ↔ Text.isBlankText text.toList = true := by
  refine ⟨fun h => ?_, fun h => parse_blank h ignoreCase⟩
  have hend : .endOfInput ∉ (Lexeme.readAll ignoreCase false text.toList).1 :=
    Lexeme.endOfInput_not_mem_readAll _ _ _
  rw [parse, TokenList.ofText_eq] at h
  dsimp only at h
  split at h
  · cases h
  · next hstray =>
    have htokens : (Lexeme.readAll ignoreCase false text.toList).1 = [] := by
      by_contra hne
      exact Grammar.ofTokens_ne_none hne hend h
    have hrest : (Lexeme.readAll ignoreCase false text.toList).2 = [] := by
      simpa [StrayChar.at] using hstray
    exact Lexeme.readAll_eq_nil_iff.mp (Prod.ext htokens hrest)

/-- **No condition is met by a record without fields.** -/
theorem Condition.holds_empty (c : Condition) : c.holds ∅ = false := by
  induction c with
  | relation comparison field literal => exact holds_of_lookup_none (by simp [Fields.lookup]) _ _
  | join connective l r hl hr =>
    rw [holds_join, hl, hr]
    cases connective <;> rfl

namespace Evaluator

/-! ## One build -/

theorem build_blank_iff (e : Evaluator) (text : String) :
    ((e.build text).1 = true ∧ (e.build text).2.condition = none) ↔
      Text.isBlankText text.toList = true := by
  rw [← Condition.parse_eq_none_iff e.ignoreCase, build]
  cases Condition.parse e.ignoreCase text <;> simp

theorem build_failed_iff (e : Evaluator) (text : String) :
    (e.build text).1 = false ↔ (e.build text).2.lastError.isSome = true := by
  rw [build]
  cases Condition.parse e.ignoreCase text <;> simp

theorem condition_of_build_failed (e : Evaluator) (text : String)
    (h : (e.build text).1 = false) : (e.build text).2.condition = none := by
  rw [build] at h ⊢
  cases hparse : Condition.parse e.ignoreCase text with
  | ok condition =>
    rw [hparse] at h
    cases h
  | error reason => rfl

theorem accepts_of_not_active {e : Evaluator} (h : e.isActive = false) (fields : Fields) :
    e.accepts fields = true := by
  have hcondition : e.condition = none := by simpa [isActive] using h
  rw [accepts, hcondition]

/-- A record without fields tells whether there is a condition. -/
theorem active_iff_rejects_empty (e : Evaluator) :
    e.isActive = true ↔ e.accepts ∅ = false := by
  rw [isActive, accepts]
  cases e.condition with
  | none => simp
  | some c => simp [c.holds_empty]

/-! ## Calls one after the other -/

/-- What an evaluator can be asked for. -/
inductive Call where
  | build (text : String)
  | evaluate (fields : Fields)

/-- The call is a build. -/
def Call.isBuild : Call → Bool
  | .build _ => true
  | .evaluate _ => false

/-- The answer to a call, and the evaluator after it. -/
def answer (e : Evaluator) : Call → Bool × Evaluator
  | .build text => e.build text
  | .evaluate fields => (e.accepts fields, e)

/-- Calls with their answers, and the evaluator after them. -/
def answers (e : Evaluator) : List Call → List (Call × Bool) × Evaluator
  | [] => ([], e)
  | c :: cs =>
    let (b, next) := e.answer c
    let (log, last) := next.answers cs
    ((c, b) :: log, last)

/-- The text of the last build, and its answer. -/
def lastBuild : List (Call × Bool) → Option (String × Bool)
  | [] => none
  | (.build text, built) :: log => some ((lastBuild log).getD (text, built))
  | (.evaluate _, _) :: log => lastBuild log

theorem answers_cons (e : Evaluator) (c : Call) (cs : List Call) :
    e.answers (c :: cs) = ((c, (e.answer c).1) :: ((e.answer c).2.answers cs).1,
      ((e.answer c).2.answers cs).2) := rfl

theorem build_answer (e : Evaluator) (c : Call) (text : String) :
    (e.answer c).2.build text = e.build text := by
  cases c with
  | evaluate fields => rfl
  | build earlier =>
    have hcase : (e.build earlier).2.ignoreCase = e.ignoreCase := by
      rw [build]
      cases Condition.parse e.ignoreCase earlier <;> rfl
    rw [answer, build_eq, hcase, ← build_eq]

/-- **An evaluator after any calls is the one that its last build leaves**, and the one before them
when none of them is a build. -/
theorem answers_lastBuild (e : Evaluator) (calls : List Call) :
    match lastBuild (e.answers calls).1 with
    | none => (e.answers calls).2 = e
    | some (text, built) => e.build text = (built, (e.answers calls).2) := by
  induction calls generalizing e with
  | nil => rfl
  | cons c cs ih =>
    have hrest := ih (e.answer c).2
    rw [answers_cons]
    cases c with
    | evaluate fields => exact hrest
    | build text =>
      dsimp only [lastBuild]
      cases hlast : lastBuild ((e.answer (.build text)).2.answers cs).1 with
      | none =>
        rw [hlast] at hrest
        exact Prod.ext rfl hrest.symm
      | some last =>
        rw [hlast] at hrest
        exact (build_answer e (.build text) last.1).symm.trans hrest

/-- **Questions about records change nothing**: without them all builds have the same answers, and
the evaluator after them is the same. -/
theorem answers_filter (e : Evaluator) (calls : List Call) :
    e.answers (calls.filter Call.isBuild) =
      ((e.answers calls).1.filter fun entry => entry.1.isBuild, (e.answers calls).2) := by
  induction calls generalizing e with
  | nil => rfl
  | cons c cs ih =>
    cases c with
    | build text =>
      rw [List.filter_cons_of_pos rfl, answers_cons, answers_cons, ih]
      rfl
    | evaluate fields =>
      rw [List.filter_cons_of_neg Bool.false_ne_true, answers_cons, ih]
      rfl

/-- **What can be seen of an evaluator after any calls** is decided by the last build among them.
The evaluator is the one that this build alone leaves, or an unbuilt one; the build succeeded
without a condition if and only if its text is blank; it failed if and only if there is an error,
and there is no condition then. Questions about records change nothing. The evaluator has a
condition if and only if it rejects the record without fields, and accepts every record
otherwise. -/
theorem answers_reflect (ignoreCase : Bool) (calls : List Call) :
    let log := ((unbuilt ignoreCase).answers calls).1
    let e := ((unbuilt ignoreCase).answers calls).2
    (match lastBuild log with
      | none => e = unbuilt ignoreCase
      | some (text, built) =>
        (unbuilt ignoreCase).build text = (built, e) ∧
          ((built = true ∧ e.condition = none) ↔ Text.isBlankText text.toList = true) ∧
          (built = false ↔ e.lastError.isSome = true) ∧ (built = false → e.condition = none)) ∧
      (unbuilt ignoreCase).answers (calls.filter Call.isBuild) =
        (log.filter fun entry => entry.1.isBuild, e) ∧
      (e.isActive = true ↔ e.accepts ∅ = false) ∧
      (e.isActive = false → ∀ fields, e.accepts fields = true) := by
  intro log e
  refine ⟨?_, answers_filter _ calls, active_iff_rejects_empty e,
    fun h fields => accepts_of_not_active h fields⟩
  have hlast := answers_lastBuild (unbuilt ignoreCase) calls
  cases hbuild : lastBuild log with
  | none =>
    rw [hbuild] at hlast
    exact hlast
  | some last =>
    obtain ⟨text, built⟩ := last
    rw [hbuild] at hlast
    have hblank := build_blank_iff (unbuilt ignoreCase) text
    have hfailed := build_failed_iff (unbuilt ignoreCase) text
    have hnone := condition_of_build_failed (unbuilt ignoreCase) text
    rw [hlast] at hblank hfailed hnone
    exact ⟨hlast, hblank, hfailed, hnone⟩

end Evaluator

end RecordFilter
