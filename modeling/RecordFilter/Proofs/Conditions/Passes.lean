import Mathlib
import RecordFilter.Proofs.Conditions.Interchange

/-!
# Passes over a condition

A condition is evaluated, written and given back by a **pass**: a pair of joined conditions is
visited by visiting its left part and then, unless that settles the pair, its right part, and the
visit to the pair is under way until those to its parts are over. A pass that has room for `n`
visits under way at once fails when it needs more. It needs no more than the tree is high.

* `run_evaluation`, `run_printing`: evaluating and writing a condition are passes;
* `runWithin_eq`: a pass with room for as many visits as the tree is high ends.
-/

namespace RecordFilter.Condition

/-- A way to go over a condition. -/
structure Pass (α : Type) where
  /-- What a visit to a relation makes of it. -/
  relation : Comparison → String → Value → α
  /-- What a visit to a pair makes of the left part alone, if the right part is not visited. -/
  early : Connective → α → Option α
  /-- What a visit to a pair makes of both parts. -/
  join : Connective → α → α → α

namespace Pass
variable {α : Type}

/-- What the pass makes of the condition. -/
def run (p : Pass α) : Condition → α
  | .relation o field literal => p.relation o field literal
  | .join c l r =>
    match p.early c (p.run l) with
    | some a => a
    | none => p.join c (p.run l) (p.run r)

/-- What the pass makes of the condition with room for `n` visits under way at once, or nothing if
it needs more. -/
def runWithin (p : Pass α) : Nat → Condition → Option α
  | 0, _ => none
  | _ + 1, .relation o field literal => some (p.relation o field literal)
  | n + 1, .join c l r =>
    match p.runWithin n l with
    | none => none
    | some a =>
      match p.early c a with
      | some b => some b
      | none => (p.runWithin n r).map (p.join c a)

/-- **A pass needs room for as many visits as the tree is high**, and no more. -/
theorem runWithin_eq (p : Pass α) : ∀ {c : Condition} {n : Nat}, c.depth ≤ n →
    p.runWithin n c = some (p.run c)
  | .relation _ _ _, 0, h => absurd h (Nat.not_succ_le_zero 0)
  | .relation _ _ _, n + 1, _ => rfl
  | .join _ l r, 0, h => by
    rw [depth] at h
    omega
  | .join c l r, n + 1, h => by
    rw [depth] at h
    have hl : p.runWithin n l = some (p.run l) := p.runWithin_eq (by omega)
    have hr : p.runWithin n r = some (p.run r) := p.runWithin_eq (by omega)
    rw [runWithin, hl, run]
    dsimp only
    cases p.early c (p.run l) with
    | some a => rfl
    | none =>
      dsimp only
      rw [hr, Option.map_some]

end Pass

/-! ## The passes that there are -/

/-- Evaluates the condition on a record; the right part of a pair is not visited when the left part
decides. -/
def evaluation (fields : Fields) : Pass Bool where
  relation o field literal := (Condition.relation o field literal).holds fields
  early
    | .and, false => some false
    | .or, true => some true
    | _, _ => none
  join := Connective.apply

/-- Writes the condition as an expression. -/
def printing : Pass String where
  relation o field literal := (Condition.relation o field literal).text
  early _ _ := none
  join c l r := "(" ++ l ++ " " ++ c.name ++ " " ++ r ++ ")"

/-- Gives back every part of the condition. -/
def release : Pass Unit where
  relation _ _ _ := ()
  early _ _ := none
  join _ _ _ := ()

theorem run_evaluation (fields : Fields) : ∀ c : Condition,
    (evaluation fields).run c = c.holds fields
  | .relation _ _ _ => rfl
  | .join c l r => by
    rw [Pass.run, run_evaluation fields l, run_evaluation fields r, holds_join]
    cases c <;> cases l.holds fields <;> rfl

theorem run_printing : ∀ c : Condition, printing.run c = c.text
  | .relation _ _ _ => rfl
  | .join c l r => by
    rw [Pass.run, run_printing l, run_printing r]
    rfl

end RecordFilter.Condition
