import Mathlib
import RecordFilter.Proofs.Records.NumberField

/-!
# Integers in records

A number of a record is an integer just when its text spells one of 64 bits, without a point or an
exponent, and is not the negative zero. It is then the integer that the text spells.

* `NumberText.number?_congr`: what is read depends on the text alone;
* `NumberText.number?_eq_integer_iff`: which numbers are integers.
-/

namespace RecordFilter.Json

open Numeral

namespace Number

theorem significand_of_rest_nil {ds : List Char} : ∀ {s n : Nat},
    (takeDigits s n ds).rest = [] →
      (takeDigits s n ds).significand = 10 ^ ds.length * s + ofDigits ds := by
  induction ds with
  | nil =>
    intro s n _
    simp [takeDigits, ofDigits]
  | cons d ds ih =>
    intro s n h
    rw [takeDigits] at h ⊢
    split at h
    · next hfits =>
      rw [if_pos hfits, ih h, ← List.singleton_append, ofDigits_append, List.length_append,
        List.length_singleton, Nat.add_comm 1, Nat.pow_succ]
      simp only [ofDigits, List.foldl_cons, List.foldl_nil]
      ring
    · cases h

theorem toInt64?_of_ofInteger {negative : Bool} {n : Nat} {i : Int64}
    (h : ofInteger negative n = .integer i) : toInt64? (signed negative n) = some i := by
  cases negative with
  | true =>
    rw [ofInteger, if_pos rfl] at h
    split at h
    · cases h
    · split at h
      · next hi =>
        cases h
        exact hi
      · cases h
  | false =>
    rw [ofInteger, if_neg Bool.false_ne_true] at h
    split at h
    · next hi =>
      cases h
      exact hi
    · cases h

end Number

namespace NumberText

variable {t : NumberText} {n : Number} {i : Int64}

/-- The negative zero as it is written. -/
def negativeZero : NumberText where
  negative := true
  whole := ['0']
  fraction := []
  exponent := none
  nonempty := List.cons_ne_nil _ _
  wholeDigits := allDigits_zeros 1
  fractionDigits := allDigits_nil
  noLeadingZero _ := rfl

theorem text_negativeZero : negativeZero.text = "-0".toList := rfl

/-- Only one text spells an integer that is zero under a minus sign. -/
theorem text_eq_of_zero (hinteger : t.IsInteger) (hnegative : t.negative = true)
    (hzero : t.decimal.significand = 0) : t.text = "-0".toList := by
  have hwhole : t.whole = ['0'] := by
    cases hw : t.whole with
    | nil => exact absurd hw t.nonempty
    | cons c cs =>
      have hsum : ofDigits (c :: cs) = 10 ^ cs.length * ofDigits [c] + ofDigits cs := by
        rw [← List.singleton_append, ofDigits_append]
      have hc : c = '0' := by
        have hdigit := t.wholeDigits c (hw ▸ List.mem_cons_self)
        have hnone : ofDigits [c] = 0 := by
          rw [decimal, hinteger.1, List.append_nil, hw] at hzero
          have hproduct : 10 ^ cs.length * ofDigits [c] = 0 := by
            dsimp only at hzero
            omega
          exact (Nat.mul_eq_zero.mp hproduct).resolve_left (Nat.pow_pos (by decide)).ne'
        revert hnone
        exact Lexeme.forall_digit (fun c => ofDigits [c] = 0 → c = '0') (by decide) hdigit
      rw [← hw]
      exact t.noLeadingZero (by rw [hw, hc]; rfl)
  rw [text, hnegative, if_pos rfl, unsignedText, fractionText, exponentText, hinteger.1,
    hinteger.2, hwhole]
  rfl

theorem number?_of_integer64? (hi : integer64? t.text = some i) (hzero : t.text ≠ "-0".toList) :
    t.number? = some (.integer i) := by
  have hlt := (isExact_of_integer64? hi).significand_lt
  rw [integer64?_text] at hi
  obtain ⟨hinteger, hi⟩ := Option.ite_none_right_eq_some.mp hi
  rw [t.number?_eq hlt, if_pos hinteger]
  have hsign : t.negative = true → t.decimal.significand ≠ 0 := fun hnegative hnone =>
    hzero (text_eq_of_zero hinteger hnegative hnone)
  rw [Number.ofInteger_of_some hsign hi]

/-- The number of a text does not depend on how its parts are found. -/
theorem number?_congr {t' : NumberText} (h : t.text = t'.text) : t.number? = t'.number? := by
  have hnil : EndsNumber [] := nofun
  have hread := (Number.read?_text t hnil).symm.trans (h ▸ Number.read?_text t' hnil)
  refine Option.map_injective (fun n m hnm => ?_) hread
  exact (Prod.mk.inj hnm).1

theorem integer64?_of_number? (h : t.number? = some (.integer i)) :
    integer64? t.text = some i ∧ t.text ≠ "-0".toList := by
  constructor
  · rw [number?] at h
    split at h
    · next hwhole =>
      obtain ⟨hinteger, hrest⟩ := hwhole
      have hvalue : (Number.takeDigits 0 0 t.whole).significand = t.decimal.significand := by
        rw [Number.significand_of_rest_nil hrest, decimal, hinteger.1, List.append_nil,
          Nat.mul_zero, Nat.zero_add]
      rw [hvalue] at h
      rw [integer64?_text, if_pos hinteger]
      exact Number.toInt64?_of_ofInteger (Option.some.inj h)
    · obtain ⟨r, -, hr⟩ := Option.map_eq_some_iff.mp h
      cases hr
  · intro hzero
    rw [number?_congr (hzero.trans text_negativeZero.symm)] at h
    have hreal : negativeZero.number? = some (.real (.signed true .zero)) := by decide
    rw [hreal] at h
    cases h

/-- **Which numbers are integers**: those whose texts spell integers of 64 bits, but for the
negative zero. -/
theorem number?_eq_integer_iff : t.number? = some (.integer i) ↔
    integer64? t.text = some i ∧ t.text ≠ "-0".toList :=
  ⟨integer64?_of_number?, fun h => number?_of_integer64? h.1 h.2⟩

end NumberText

end RecordFilter.Json
