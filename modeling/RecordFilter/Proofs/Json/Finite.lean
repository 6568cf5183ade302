import Mathlib
import RecordFilter.Record
import RecordFilter.Proofs.Binary64.Monotone
import RecordFilter.Proofs.Json.Exact
import RecordFilter.Proofs.Json.TrailingSpace

/-!
# The numbers of a document are finite

A JSON number that is too large has no value, so no document holds an infinity, nor "not a number".
Large exponents are refused when the product turns out infinite; small ones lead to quotients, and a
quotient by ten or more is finite whatever is divided.

* `Number.finite_read?`: what is read as a number is finite;
* `gives_value`: what all values that a reader finds have in common;
* `finite_of_ofLine`: the fields of a record are finite.
-/

namespace RecordFilter

/-! ## Quotients -/

namespace Binary64.Rank

theorem units_mono {a b : Rank} (h : a.val ≤ b.val) : a.units ≤ b.units := by
  by_contra hlt
  have hle := nearest_mono (Nat.le_of_lt (Nat.lt_of_not_le hlt)) 1
  rw [nearest_units, nearest_units] at hle
  have heq : a = b := Fin.ext (Nat.le_antisymm h hle)
  exact hlt (Nat.le_of_eq (congrArg units heq))

theorem units_le (a : Rank) : a.units ≤ 2 * 2 ^ 2097 := by
  have hinfinity : infinity.units = 2 * 2 ^ 2097 := by decide +kernel
  rw [← hinfinity]
  exact units_mono (Nat.le_of_lt_succ a.isLt)

theorem div_ne_infinity (a : Rank) {b : Rank} (hb : 10 * unitsPerOne ≤ b.units) :
    a.div b ≠ infinity := by
  refine nearest_ne_infinity (Nat.div_lt_of_lt_mul ?_)
  have hpos := unitsPerOne_pos
  calc a.units * unitsPerOne ≤ 2 * 2 ^ 2097 * unitsPerOne := Nat.mul_le_mul_right _ a.units_le
    _ = 2 * unitsPerOne * 2 ^ 2097 := Nat.mul_right_comm 2 (2 ^ 2097) unitsPerOne
    _ < 10 * unitsPerOne * 2 ^ 2097 :=
        Nat.mul_lt_mul_of_pos_right (by omega) (pow_pos two_pos 2097)
    _ ≤ b.units * 2 ^ 2097 := Nat.mul_le_mul_right _ hb

end Binary64.Rank

namespace Json

open Binary64

/-! ## Numbers -/

namespace Number

/-- The number is neither infinite nor "not a number". -/
def IsFinite : Number → Prop
  | .real x => x.isFinite = true
  | _ => True

theorem ten_le_nearestPower {k : Nat} (hk : 1 ≤ k) :
    10 * Rank.unitsPerOne ≤ (nearestPower k).units := by
  have hten : (nearestPower 1).units = 10 * Rank.unitsPerOne :=
    isNatural_nearestPower (by decide)
  rw [← hten, nearestPower_eq, nearestPower_eq]
  exact Rank.units_mono (Rank.ofRatio_mono (Nat.pow_le_pow_right (by decide) hk) 1)

theorem scale_ne_infinity {r s : Rank} {exponent : Int} (h : scale r exponent = some s) :
    s ≠ .infinity := by
  unfold scale at h
  split at h
  · cases h
    exact Rank.div_ne_infinity _ (ten_le_nearestPower (by omega))
  · obtain ⟨hzero, h⟩ | ⟨-, h⟩ := ite_eq_iff.mp h
    · cases h
      decide
    · obtain ⟨-, h⟩ := Option.ite_none_left_eq_some.mp h
      obtain ⟨hfinite, h⟩ := Option.ite_none_left_eq_some.mp h
      cases h
      exact hfinite

theorem finite_ofParts {negative : Bool} {significand : Nat} {exponent : Int} {n : Number}
    (h : ofParts negative significand exponent = some n) : n.IsFinite := by
  obtain ⟨r, hr, rfl⟩ := Option.map_eq_some_iff.mp h
  simpa [IsFinite, isFinite] using scale_ne_infinity hr

theorem finite_ofInteger {negative : Bool} {n : Nat} (hn : n < UInt64.size) :
    (ofInteger negative n).IsFinite := by
  have hsize : UInt64.size < 2 ^ 200 := by decide
  have hfinite := Rank.ofRatio_ne_infinity (Nat.lt_trans hn hsize) 1
  unfold ofInteger
  split
  · split
    · rfl
    · split
      · trivial
      · simpa [IsFinite, isFinite] using hfinite
  · split <;> trivial

theorem significand_takeDigits_lt {significand : Nat} (h : significand < UInt64.size)
    (count : Nat) (text : List Char) :
    (takeDigits significand count text).significand < UInt64.size := by
  induction text generalizing significand count with
  | nil => exact h
  | cons c rest ih =>
    rw [takeDigits]
    split
    · next hc =>
      rw [Bool.and_eq_true, decide_eq_true_iff] at hc
      exact ih hc.2 _
    · exact h

theorem finite_withExponent {negative : Bool} {significand : Nat} {exponent : Int}
    {text rest : List Char} {n : Number}
    (h : withExponent negative significand exponent text = some (n, rest)) : n.IsFinite := by
  have hexplicit : ∀ {text}, withExponent.explicit negative significand exponent text =
      some (n, rest) → n.IsFinite := by
    intro text h
    obtain ⟨-, h⟩ := Option.ite_none_left_eq_some.mp h
    obtain ⟨m, hm, heq⟩ := Option.map_eq_some_iff.mp h
    cases heq
    exact finite_ofParts hm
  unfold withExponent at h
  split at h
  · exact hexplicit h
  · exact hexplicit h
  · obtain ⟨m, hm, heq⟩ := Option.map_eq_some_iff.mp h
    cases heq
    exact finite_ofParts hm

theorem finite_afterInteger {negative : Bool} {significand exponent : Nat}
    {text rest : List Char} {n : Number}
    (h : afterInteger negative significand exponent text = some (n, rest)) : n.IsFinite := by
  unfold afterInteger at h
  split at h
  · obtain ⟨-, h⟩ := Option.ite_none_left_eq_some.mp h
    exact finite_withExponent h
  · exact finite_withExponent h

theorem finite_unsigned? {negative : Bool} {text rest : List Char} {n : Number}
    (h : unsigned? negative text = some (n, rest)) : n.IsFinite := by
  have hzero : 0 < UInt64.size := by decide
  unfold unsigned? at h
  split at h
  · cases h
  · cases h
  · dsimp only at h
    split at h
    · exact finite_afterInteger h
    · exact finite_afterInteger h
    · exact finite_afterInteger h
    · cases h
      exact finite_ofInteger (significand_takeDigits_lt hzero 0 text)
    · exact finite_afterInteger h

/-- **What is read as a number is finite.** -/
theorem finite_read? {text rest : List Char} {n : Number} (h : read? text = some (n, rest)) :
    n.IsFinite := by
  unfold read? at h
  split at h <;> exact finite_unsigned? h

end Number

/-! ## Documents -/

/-- All numbers of the document are finite. -/
inductive IsFinite : Json → Prop
  | null : IsFinite .null
  | bool (b : Bool) : IsFinite (.bool b)
  | number {n : Number} (finite : n.IsFinite) : IsFinite (.number n)
  | string (text : String) : IsFinite (.string text)
  | array {elements : List Json} (finite : ∀ v ∈ elements, IsFinite v) : IsFinite (.array elements)
  | object {members : List (String × Json)} (finite : ∀ m ∈ members, IsFinite m.2) :
    IsFinite (.object members)

/-- What the reader finds has the property. -/
def Gives {α : Type} (P : α → Prop) (r : Reader α) : Prop :=
  ∀ (text rest : List Char) (v : α), r text = some (v, rest) → P v

section Items
variable {α : Type} {P : α → Prop}

theorem gives_itemsAfter {one : Reader α} (hone : Gives P one) (close : Char) :
    ∀ (bound : Nat) {taken : List α}, (∀ v ∈ taken, P v) →
      Gives (fun vs => ∀ v ∈ vs, P v) (itemsAfter close one bound taken)
  | 0, _, _ => nofun
  | bound + 1, taken, htaken => by
    intro text rest vs h
    rw [itemsAfter] at h
    split at h
    · cases h
    · next v _ hv =>
      have hmore : ∀ w ∈ v :: taken, P w := List.forall_mem_cons.mpr ⟨hone _ _ _ hv, htaken⟩
      split at h
      · cases h
      · split at h
        · exact gives_itemsAfter hone close bound hmore _ _ _ h
        · obtain ⟨-, h⟩ := Option.ite_none_right_eq_some.mp h
          cases h
          exact fun w hw => hmore w (List.mem_reverse.mp hw)

end Items

theorem gives_member {P : Json → Prop} {element : Reader Json} (helement : Gives P element)
    (bound : Nat) : Gives (fun m => P m.2) (member bound element) := by
  intro text rest m h
  unfold member at h
  split at h
  · split at h
    · cases h
    · split at h
      · obtain ⟨⟨v, _⟩, hv, heq⟩ := Option.map_eq_some_iff.mp h
        cases heq
        exact helement _ _ _ hv
      · cases h
  · cases h

variable {element : Reader Json} (helement : Gives IsFinite element)
include helement

theorem gives_arrayAfter (bound : Nat) : Gives IsFinite (arrayAfter bound element) := by
  intro text rest v h
  unfold arrayAfter at h
  split at h
  · cases h
    exact .array (List.forall_mem_nil _)
  · obtain ⟨⟨vs, _⟩, hvs, heq⟩ := Option.map_eq_some_iff.mp h
    cases heq
    rw [elementsAfter_eq] at hvs
    exact .array (gives_itemsAfter helement ']' bound (List.forall_mem_nil _) _ _ _ hvs)

theorem gives_objectAfter (bound : Nat) : Gives IsFinite (objectAfter bound element) := by
  intro text rest v h
  unfold objectAfter at h
  split at h
  · cases h
    exact .object (List.forall_mem_nil _)
  · obtain ⟨⟨ms, _⟩, hms, heq⟩ := Option.map_eq_some_iff.mp h
    cases heq
    rw [membersAfter_eq] at hms
    exact .object (gives_itemsAfter (gives_member helement bound) '\x7d' bound
      (List.forall_mem_nil _) _ _ _ hms)

omit helement

theorem finite_of_mem_words : ∀ w ∈ words, w.2.IsFinite := by
  simp [words, IsFinite.null, IsFinite.bool]

theorem gives_valueWith {arrays objects : Reader Json} (harrays : Gives IsFinite arrays)
    (hobjects : Gives IsFinite objects) (bound : Nat) :
    Gives IsFinite (valueWith bound arrays objects) := by
  intro text rest v h
  unfold valueWith at h
  split at h
  · obtain ⟨⟨s, _⟩, -, heq⟩ := Option.map_eq_some_iff.mp h
    cases heq
    exact .string s
  · exact harrays _ _ _ h
  · exact hobjects _ _ _ h
  · split at h
    · next found hword =>
      cases h
      obtain ⟨w, hw, hfound⟩ := List.exists_of_findSome?_eq_some hword
      obtain ⟨_, -, heq⟩ := Option.map_eq_some_iff.mp hfound
      cases heq
      exact finite_of_mem_words w hw
    · obtain ⟨⟨n, _⟩, hn, heq⟩ := Option.map_eq_some_iff.mp h
      cases heq
      exact .number (Number.finite_read? hn)

/-- **Every value that is read is finite**, whatever the levels of nesting. -/
theorem gives_value (bound : Nat) : ∀ levels, Gives IsFinite (value bound levels)
  | 0 => by
    have hnone : Gives IsFinite fun _ => none := by
      intro text rest v h
      cases h
    exact gives_valueWith hnone hnone bound
  | levels + 1 =>
    have helement := gives_value bound levels
    gives_valueWith (gives_arrayAfter helement bound) (gives_objectAfter helement bound) bound

theorem finite_of_parse? {text : List Char} {v : Json} (h : parse? text = some v) :
    v.IsFinite := by
  unfold parse? at h
  split at h
  · next hv =>
    obtain ⟨-, h⟩ := Option.ite_none_right_eq_some.mp h
    cases h
    exact gives_value _ _ _ _ _ hv
  · cases h

end Json

/-! ## Records -/

/-- The value is neither infinite nor "not a number". -/
def Value.isFinite : Value → Bool
  | .float x => x.isFinite
  | _ => true

namespace Record

theorem finite_of_value? {v : Json} (hv : v.IsFinite) {w : Value} (h : value? v = some w) :
    w.isFinite = true := by
  cases hv with
  | null => cases h
  | bool b => cases b <;> cases h <;> rfl
  | string text =>
    cases h
    rfl
  | array _ => cases h
  | object _ => cases h
  | @number n hn =>
    cases n with
    | integer i =>
      cases h
      rfl
    | natural n =>
      cases h
      have hlt : n.toNat < 2 ^ 200 := Nat.lt_trans n.toNat_lt (by decide)
      simpa [Value.isFinite, Binary64.ofInt, Binary64.isFinite] using
        Binary64.Rank.ofRatio_ne_infinity hlt 1
    | real x =>
      cases h
      exact hn

theorem exists_member_of_lookup {members : List (String × Json)} {name : String} {w : Value}
    (h : (fieldsOf members).lookup name = some w) : ∃ m ∈ members, value? m.2 = some w := by
  induction members using List.reverseRecOn with
  | nil => simp [fieldsOf, Fields.lookup] at h
  | append_singleton members m ih =>
    rw [fieldsOf_append, Fields.lookup_set] at h
    split at h
    · exact ⟨m, by simp, h⟩
    · obtain ⟨m', hm', hw⟩ := ih h
      exact ⟨m', List.mem_append_left _ hm', hw⟩

/-- **The fields of a record are finite.** -/
theorem finite_of_ofLine {line : String} {fields : Fields} (h : ofLine line = some fields)
    {name : String} {w : Value} (hw : fields.lookup name = some w) : w.isFinite = true := by
  unfold ofLine at h
  split at h
  · next members hmembers =>
    cases h
    obtain ⟨m, hm, hvalue⟩ := exists_member_of_lookup hw
    have hfinite := Json.finite_of_parse? hmembers
    cases hfinite with
    | object hall => exact finite_of_value? (hall m hm) hvalue
  · cases h

end Record

end RecordFilter
