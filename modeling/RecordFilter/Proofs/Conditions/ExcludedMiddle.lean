import Mathlib
import RecordFilter.Proofs.Conditions.Interchange
import RecordFilter.Proofs.Conditions.Leaves
import RecordFilter.Proofs.Json.Finite
import RecordFilter.Proofs.Printing.RoundTrip

/-!
# Excluded middle

Two values of one kind have an order, unless one of them is "not a number". The literals of an
expression are finite, since a numeral that is too large is a word, and so are the fields of a
record. So when a relation of an expression meets a record, its field is below, above or equal to
its literal, or else one of them is a string and the other one is a number.

* `exists_compare`: finite values of one kind have an order;
* `finite_of_mem_leaves`: the literals of an expression are finite;
* `holds_excluded_middle`: the six comparisons of a field with its literal.
-/

namespace RecordFilter

namespace Value

/-- The value is a string. -/
def isString : Value → Bool
  | .string _ => true
  | _ => false

/-- Both values are strings, or both are numbers. -/
def SameKind (a b : Value) : Prop := a.isString = b.isString

instance (a b : Value) : Decidable (SameKind a b) := by
  unfold SameKind
  infer_instance

theorem isFinite_of_writable {v : Value} (h : v.Writable) : v.isFinite = true := by
  cases v with
  | string s => rfl
  | integer n => rfl
  | float x => exact h

/-- **Finite values of one kind have an order.** -/
theorem exists_compare {a b : Value} (hkind : a.SameKind b) (ha : a.isFinite = true)
    (hb : b.isFinite = true) : ∃ o, a.compare b = some o := by
  cases a with
  | string s =>
    cases b with
    | string t => exact ⟨_, rfl⟩
    | integer n => cases hkind
    | float y => cases hkind
  | integer m =>
    cases b with
    | string t => cases hkind
    | integer n => exact ⟨_, rfl⟩
    | float y =>
      cases y with
      | nan => cases hb
      | signed s r => exact ⟨_, rfl⟩
  | float x =>
    cases x with
    | nan => cases ha
    | signed s r =>
      cases b with
      | string t => cases hkind
      | integer n => exact ⟨_, rfl⟩
      | float y =>
        cases y with
        | nan => cases hb
        | signed s' r' => exact ⟨_, rfl⟩

theorem compare_of_not_sameKind {a b : Value} (h : ¬ a.SameKind b) : a.compare b = none := by
  cases a with
  | string s =>
    cases b with
    | string t => exact absurd rfl h
    | integer n => rfl
    | float y => rfl
  | integer m =>
    cases b with
    | string t => rfl
    | integer n => exact absurd rfl h
    | float y => exact absurd rfl h
  | float x =>
    cases b with
    | string t => rfl
    | integer n => exact absurd rfl h
    | float y => exact absurd rfl h

end Value

namespace Comparison

theorem existsUnique_holds (order : Ordering) :
    ∃! c : Comparison, c ∈ [eq, lt, gt] ∧ c.holds (some order) = true := by
  cases order with
  | lt => exact ⟨.lt, by decide, by rintro (_ | _) <;> decide⟩
  | eq => exact ⟨.eq, by decide, by rintro (_ | _) <;> decide⟩
  | gt => exact ⟨.gt, by decide, by rintro (_ | _) <;> decide⟩

theorem holds_geq (order : Ordering) : geq.holds (some order) = !lt.holds (some order) := by
  cases order <;> rfl

theorem holds_leq (order : Ordering) : leq.holds (some order) = !gt.holds (some order) := by
  cases order <;> rfl

theorem holds_none_iff (c : Comparison) : c.holds none = true ↔ c = .neq := by
  cases c <;> decide

end Comparison

namespace Condition

theorem Writable.finite_of_mem_leaves {ignoreCase : Bool} : ∀ {c : Condition},
    c.Writable ignoreCase → ∀ l ∈ c.leaves, l.2.2.isFinite = true
  | .relation _ _ _, ⟨_, hliteral⟩ =>
    List.forall_mem_singleton.mpr (Value.isFinite_of_writable hliteral)
  | .join _ _ _, ⟨hl, hr⟩ =>
    List.forall_mem_append.mpr ⟨hl.finite_of_mem_leaves, hr.finite_of_mem_leaves⟩

/-- **A field and its literal obey excluded middle**, whenever an expression meets a record. Both
are finite. When they are of one kind, exactly one of `eq`, `lt` and `gt` holds, and the other three
comparisons are negations of these; else only `neq` holds. -/
theorem holds_excluded_middle {ignoreCase : Bool} {text : String} {c : Condition}
    (hc : parse ignoreCase text = .ok (some c)) {line : String} {fields : Fields}
    (hfields : Record.ofLine line = some fields) {o : Comparison} {field : String}
    {literal v : Value} (hleaf : (o, field, literal) ∈ c.leaves)
    (hv : fields.lookup field = some v) :
    let holds (p : Comparison) : Bool := (Condition.relation p field literal).holds fields
    v.isFinite = true ∧ literal.isFinite = true ∧
      (v.SameKind literal →
        (∃! p : Comparison, p ∈ [.eq, .lt, .gt] ∧ holds p = true) ∧
          holds .geq = !holds .lt ∧ holds .leq = !holds .gt ∧ holds .neq = !holds .eq) ∧
      (¬ v.SameKind literal → ∀ p : Comparison, holds p = true ↔ p = .neq) := by
  have hholds : ∀ p : Comparison,
      (Condition.relation p field literal).holds fields = p.holds (v.compare literal) := by
    intro p
    rw [holds_relation, hv, Option.any_some]
  have hfinite : v.isFinite = true := Record.finite_of_ofLine hfields hv
  have hliteral : literal.isFinite = true :=
    (Grammar.writable_of_parse hc).1.finite_of_mem_leaves _ hleaf
  simp only [hholds]
  refine ⟨hfinite, hliteral, fun hkind => ?_, fun hkind p => ?_⟩
  · obtain ⟨order, horder⟩ := Value.exists_compare hkind hfinite hliteral
    rw [horder]
    exact ⟨Comparison.existsUnique_holds order, Comparison.holds_geq order,
      Comparison.holds_leq order, Comparison.holds_neq _⟩
  · rw [Value.compare_of_not_sameKind hkind]
    exact p.holds_none_iff

/-- A number beyond 64 bits against a fraction, and a number against a word that is no numeral. -/
theorem holds_excluded_middle_sample :
    let half : Value := .float (.signed false ⟨0x3FE0000000000000, by decide⟩)
    let word : Value := .string "1e999"
    let c : Condition := .join .or (.relation .gt "a" half) (.relation .lt "b" word)
    parse false "a gt 0.5 or b lt 1e999" = .ok (some c) ∧
    ∃ fields v w, Record.ofLine "\x7b\"a\":18446744073709551616,\"b\":-0\x7d" = some fields ∧
      fields.lookup "a" = some v ∧ v.SameKind half ∧
      fields.lookup "b" = some w ∧ ¬ w.SameKind word ∧
      (∃! p : Comparison, p ∈ [.eq, .lt, .gt] ∧
        (Condition.relation p "a" half).holds fields = true) ∧
      ∀ p : Comparison, (Condition.relation p "b" word).holds fields = true ↔ p = .neq := by
  intro half word c
  have hc : parse false "a gt 0.5 or b lt 1e999" = .ok (some c) := by decide +kernel
  have hread : (Record.ofLine "\x7b\"a\":18446744073709551616,\"b\":-0\x7d").map (fun fields =>
      (fields.lookup "a", fields.lookup "b")) =
        some (some (.float (.ofInt (2 ^ 64))), some (.float (.signed true .zero))) := by
    decide +kernel
  obtain ⟨fields, hfields, hlookup⟩ := Option.map_eq_some_iff.mp hread
  obtain ⟨ha, hb⟩ := Prod.mk.inj hlookup
  have hnumbers : (Value.float (.ofInt (2 ^ 64))).SameKind half := by decide
  have hkinds : ¬ (Value.float (.signed true .zero)).SameKind word := by decide
  have hleft : (Comparison.gt, "a", half) ∈ c.leaves := .head _
  have hright : (Comparison.lt, "b", word) ∈ c.leaves := .tail _ (.head _)
  obtain ⟨-, -, hsame, -⟩ := holds_excluded_middle hc hfields hleft ha
  obtain ⟨-, -, -, hother⟩ := holds_excluded_middle hc hfields hright hb
  exact ⟨hc, fields, _, _, hfields, ha, hnumbers, hb, hkinds, (hsame hnumbers).1, hother hkinds⟩

end Condition

end RecordFilter
