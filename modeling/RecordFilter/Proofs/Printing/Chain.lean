import Mathlib
import RecordFilter.Proofs.Grammar.Recognition
import RecordFilter.Proofs.Printing.Canonical

/-!
# Chains without parentheses

Conditions written one after the other with a connective between them are read as joined from the
left. The parentheses that count for such a text are those of its parts only, while the tree is one
level higher for every part.

* `parse_chainText`: what is read from the text of a chain;
* `depth_add_length_le`: every connective adds a level to the tree.
-/

namespace RecordFilter

namespace Condition

/-- One or more conditions joined from the left. -/
def joined (c : Connective) (first : Condition) (more : List Condition) : Condition :=
  more.foldl (join c) first

/-- The texts of the conditions with the connective between them. -/
def chainText (c : Connective) (first : Condition) (more : List Condition) : String :=
  more.foldl (fun text d => text ++ " " ++ c.name ++ " " ++ d.text) first.text

theorem depth_add_length_le (c : Connective) : ∀ (more : List Condition) (first : Condition),
    first.depth + more.length ≤ (joined c first more).depth
  | [], _ => Nat.le_refl _
  | d :: more, first => by
    have hrest := depth_add_length_le c more (.join c first d)
    rw [depth] at hrest
    rw [List.length_cons]
    exact Nat.le_trans (by omega) hrest

/-- The text of the conditions after the first. -/
def tailText (c : Connective) (more : List Condition) : List Char :=
  more.flatMap fun d => ' ' :: (c.name.toList ++ ' ' :: d.text.toList)

theorem toList_chainText (c : Connective) (first : Condition) (more : List Condition) :
    (chainText c first more).toList = first.text.toList ++ tailText c more := by
  have hfold : ∀ (more : List Condition) (text : String),
      (more.foldl (fun text d => text ++ " " ++ c.name ++ " " ++ d.text) text).toList =
        text.toList ++ tailText c more := by
    intro more
    induction more with
    | nil =>
      intro text
      simp [tailText]
    | cons d more ih =>
      intro text
      rw [List.foldl_cons, ih]
      simp [tailText, String.toList_append]
  exact hfold more first.text

end Condition

namespace Grammar

open RecordFilter.Condition

variable {ignoreCase : Bool} {c : Connective} {first : Condition} {more : List Condition}

theorem endsWord_tailText : ∀ more : List Condition, Lexeme.EndsWord (tailText c more)
  | [] => nofun
  | _ :: _ => Lexeme.endsWord_space _

/-- The phrases of the conditions in a chain. -/
def phrases (more : List Condition) : List Phrase := more.map fun d => (canonical d).phrase

theorem readAll_tailText : ∀ {more : List Condition}, (∀ d ∈ more, d.Writable ignoreCase) →
    Lexeme.readAll ignoreCase false (tailText c more) = (Phrase.tail c (phrases more), [])
  | [], _ => Lexeme.readAll_blank rfl
  | d :: more, hmore => by
    have htext : tailText c (d :: more) =
        ' ' :: (c.name.toList ++ ' ' :: (d.text.toList ++ tailText c more)) := by
      simp [tailText]
    have hd := hmore d List.mem_cons_self
    rw [htext, Lexeme.readAll_space, Lexeme.readAll_connective,
      Lexeme.readAll_text hd (endsWord_tailText more),
      readAll_tailText fun e he => hmore e (List.mem_cons_of_mem d he)]
    simp [Lexeme.prepend, phrases, phrase_canonical]

/-- Each connective has a rule of the grammar that derives chains. -/
theorem exists_expression_chain (c : Connective) (first : Condition) (more : List Condition) :
    ∃ e : Expression, e.phrase = .chain c (canonical first).phrase (phrases more) := by
  cases c with
  | and =>
    refine ⟨.chain (.chain (canonical first) (more.map canonical)) [], ?_⟩
    simp [phrases, Function.comp_def]
  | or =>
    refine ⟨.chain (.chain (canonical first) []) (more.map fun d => .chain (canonical d) []), ?_⟩
    simp [phrases, Function.comp_def]

theorem condition_chain (c : Connective) : ∀ (more : List Condition) (first : Phrase),
    (Phrase.chain c first (phrases more)).condition = joined c first.condition more
  | [], _ => rfl
  | d :: more, first => by
    rw [phrases, List.map_cons, Phrase.chain_cons]
    refine (condition_chain c more _).trans ?_
    rw [Phrase.join, phrase_canonical]
    rfl

/-- **A chain without parentheses is read as joined from the left**, if its parts can be written and
are within the limits. -/
theorem parse_chainText (hfirst : first.Writable ignoreCase)
    (hmore : ∀ d ∈ more, d.Writable ignoreCase)
    (hdepth : ∀ d ∈ first :: more, d.depth ≤ maxNesting + 1)
    (hrelations : first.relations + (more.map relations).sum ≤ maxRelations) :
    Condition.parse ignoreCase (chainText c first more) = .ok (some (joined c first more)) := by
  have hread : Lexeme.readAll ignoreCase false (chainText c first more).toList =
      (first.tokens ++ Phrase.tail c (phrases more), []) := by
    rw [toList_chainText, Lexeme.readAll_text hfirst (endsWord_tailText more),
      readAll_tailText hmore]
    rfl
  have hnesting : ∀ d : Condition, d.depth ≤ maxNesting + 1 →
      (canonical d).phrase.nesting ≤ maxNesting := by
    intro d hd
    rw [phrase_canonical]
    dsimp only
    omega
  obtain ⟨e, he⟩ := exists_expression_chain c first more
  rw [parse_eq_some_iff, hread]
  refine ⟨rfl, e, ?_, ?_, ?_, ?_⟩
  · rw [he, Phrase.tokens_chain, phrase_canonical]
  · rw [he, Phrase.nesting_chain_le]
    refine ⟨hnesting first (hdepth first List.mem_cons_self), List.forall_mem_map.mpr ?_⟩
    exact fun d hd => hnesting d (hdepth d (List.mem_cons_of_mem first hd))
  · rw [he, Phrase.relations_chain, phrase_canonical, phrases, List.map_map]
    simpa [Function.comp_def, phrase_canonical] using hrelations
  · rw [he, condition_chain, phrase_canonical]

end Grammar

end RecordFilter
