import Mathlib
import RecordFilter.Proofs.Conditions.Interchange
import RecordFilter.Proofs.Conditions.Leaves

/-!
# What a condition sees of a record

A condition looks up the fields that it names, and it can be made true only by what it finds: no
comparison, not even `neq`, holds of a field that is missing, and no connective turns a part that is
true against the whole. So a record that has all that another one has of the named fields meets
every condition that the other one meets.

* `apply_mono`: the connectives are monotone;
* `holds_mono`: a condition of a record that is extended on its fields;
* `holds_eq_false_of_missing`: a condition of which every field is missing;
* `holds_local`: which of two records meet a condition.
-/

namespace RecordFilter

/-- Each of the named fields that the first record has is in the second one, with the same value. -/
def Fields.ExtendedOn (names : List String) (m m' : Fields) : Prop :=
  ∀ name ∈ names, m.lookup name ≠ none → m'.lookup name = m.lookup name

instance (names : List String) (m m' : Fields) : Decidable (m.ExtendedOn names m') :=
  inferInstanceAs (Decidable (∀ name ∈ names, _))

namespace Fields
variable {m m' : Fields}

theorem extendedOn_append {names names' : List String} :
    m.ExtendedOn (names ++ names') m' ↔ m.ExtendedOn names m' ∧ m.ExtendedOn names' m' :=
  List.forall_mem_append

theorem extendedOn_of_agree {names : List String}
    (h : ∀ name ∈ names, m.lookup name = m'.lookup name) : m.ExtendedOn names m' :=
  fun name hname _ => (h name hname).symm

theorem extendedOn_set (names : List String) {name : String} (h : m.lookup name = none)
    (v : Value) : m.ExtendedOn names (m.set name (some v)) := by
  intro other _ hother
  have hne : name ≠ other := by
    rintro rfl
    exact hother h
  rw [lookup_set, if_neg hne]

end Fields

theorem Connective.apply_mono {a b a' b' : Bool} (ha : a = true → a' = true)
    (hb : b = true → b' = true) (c : Connective) : c.apply a b = true → c.apply a' b' = true := by
  cases c with
  | and =>
    simp only [apply, Bool.and_eq_true]
    exact fun h => ⟨ha h.1, hb h.2⟩
  | or =>
    simp only [apply, Bool.or_eq_true]
    exact fun h => h.imp ha hb

namespace Condition
variable {m m' : Fields}

/-- **A condition goes on to hold** when the record is extended on the fields that it names. -/
theorem holds_mono : ∀ {c : Condition}, m.ExtendedOn c.names m' → c.holds m = true →
    c.holds m' = true
  | .relation o field literal, h, hm => by
    rw [holds_relation, Option.any_eq_true] at hm
    obtain ⟨v, hv, hmeets⟩ := hm
    have hsame : m'.lookup field = m.lookup field :=
      h field List.mem_cons_self (by rw [hv]; exact Option.some_ne_none v)
    rw [holds_relation, hsame, hv, Option.any_some]
    exact hmeets
  | .join c l r, h, hm => by
    rw [names_join, Fields.extendedOn_append] at h
    rw [holds_join] at hm ⊢
    exact c.apply_mono (holds_mono h.1) (holds_mono h.2) hm

/-- **A condition is closed**: it does not hold where every field that it names is missing. -/
theorem holds_eq_false_of_missing : ∀ {c : Condition}, (∀ name ∈ c.names, m.lookup name = none) →
    c.holds m = false
  | .relation o field literal, h => holds_of_lookup_none (h field List.mem_cons_self) o literal
  | .join c l r, h => by
    rw [names_join, List.forall_mem_append] at h
    rw [holds_join, holds_eq_false_of_missing h.1, holds_eq_false_of_missing h.2]
    cases c <;> rfl

theorem holds_eq_of_agree {c : Condition} (h : ∀ name ∈ c.names, m.lookup name = m'.lookup name) :
    c.holds m = c.holds m' := by
  refine Bool.eq_iff_iff.mpr ⟨holds_mono (Fields.extendedOn_of_agree h), ?_⟩
  exact holds_mono (Fields.extendedOn_of_agree fun name hname => (h name hname).symm)

/-- **Evaluation is local, monotone and closed.** A condition that holds of a record holds of every
record that has, among the fields named by the condition, all that the first one has, with the same
values. So fields that the condition does not name make no difference, and a new field never makes a
condition false. A record with none of the named fields meets no condition. -/
theorem holds_local (c : Condition) (m m' : Fields) :
    (m.ExtendedOn c.names m' → c.holds m = true → c.holds m' = true) ∧
    ((∀ name ∈ c.names, m.lookup name = m'.lookup name) → c.holds m = c.holds m') ∧
    (∀ name v, m.lookup name = none → c.holds m = true →
      c.holds (m.set name (some v)) = true) ∧
    ((∀ name ∈ c.names, m.lookup name = none) → c.holds m = false) :=
  ⟨holds_mono, holds_eq_of_agree,
    fun _ v hnew => holds_mono (Fields.extendedOn_set c.names hnew v), holds_eq_false_of_missing⟩

/-- The condition `a neq 1 and (b gt "x" or c leq 2)` on a record without `b`, and on others. -/
theorem holds_local_sample :
    let c : Condition := .join .and (.relation .neq "a" (.integer 1))
      (.join .or (.relation .gt "b" (.string "x")) (.relation .leq "c" (.integer 2)))
    let m : Fields := (Fields.set ∅ "a" (some (.string "1"))).set "c" (some (.integer 2))
    let m' : Fields := (m.set "b" (some (.string "a"))).set "d" (some (.integer 0))
    let other : Fields := Fields.set ∅ "d" (some (.integer 0))
    (m.ExtendedOn c.names m' ∧ c.holds m = true ∧ c.holds m' = true) ∧
    ((∀ name ∈ c.names, m.lookup name = (m.set "d" none).lookup name) ∧
      c.holds m = c.holds (m.set "d" none)) ∧
    (m.lookup "b" = none ∧ c.holds (m.set "b" (some (.float .nan))) = true) ∧
    ((∀ name ∈ c.names, other.lookup name = none) ∧ c.holds other = false) := by
  intro c m m' other
  have hm : c.holds m = true := by decide
  have hextended : m.ExtendedOn c.names m' := by decide
  have hagree : ∀ name ∈ c.names, m.lookup name = (m.set "d" none).lookup name := by
    decide
  have hnew : m.lookup "b" = none := by decide
  have hmissing : ∀ name ∈ c.names, other.lookup name = none := by decide
  refine ⟨⟨hextended, hm, (holds_local c m m').1 hextended hm⟩,
    ⟨hagree, (holds_local c m (m.set "d" none)).2.1 hagree⟩,
    ⟨hnew, (holds_local c m m').2.2.1 "b" _ hnew hm⟩,
    ⟨hmissing, (holds_local c other m).2.2.2 hmissing⟩⟩

end Condition

end RecordFilter
