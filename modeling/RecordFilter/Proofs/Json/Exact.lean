import Mathlib
import RecordFilter.Record
import RecordFilter.Proofs.Binary64.Whole
import RecordFilter.Proofs.Json.NumberText

/-!
# JSON numbers that are read exactly

An integer of less than 64 bits is rounded at most once. Any other number is rounded once when it
is zero, or when its digits make up at most 53 bits and its power of ten is one of the format: then
digits and power are read as they are, and only the product or quotient of the two is rounded.

* `scale_eq_rank`: one rounded step;
* `compare_nearest`: what is read of such a number is equal to the number nearest to its text.
-/

/-! ## Integers and the numbers of the format -/

namespace RecordFilter.Numeral

theorem toInt_of_toInt64? {n : Int} {i : Int64} (h : toInt64? n = some i) : i.toInt = n := by
  obtain ⟨⟨hlow, hhigh⟩, hi⟩ := Option.ite_none_right_eq_some.mp h
  cases hi
  exact Int64.toInt_ofInt_of_le hlow hhigh

theorem ofInt_signed {negative : Bool} {n : Nat} (h : negative = true → n ≠ 0) :
    Binary64.ofInt (signed negative n) = .signed negative (.ofRatio n 1) := by
  cases negative with
  | true =>
    have := h rfl
    simp [Binary64.ofInt, signed]
    omega
  | false => simp [Binary64.ofInt, signed]

end RecordFilter.Numeral

namespace RecordFilter.Binary64

theorem compare_signed_self (s : Bool) (r : Rank) :
    Binary64.compare (.signed s r) (.signed s r) = some .eq := by
  simp [compare_self]

end RecordFilter.Binary64

namespace RecordFilter.Json

open Binary64

namespace Number

/-! ## Integers -/

section Integers
variable {negative : Bool} {n : Nat}

theorem ofInteger_of_some (hzero : negative = true → n ≠ 0) {i : Int64}
    (hi : Numeral.toInt64? (Numeral.signed negative n) = some i) :
    ofInteger negative n = .integer i := by
  cases negative with
  | true =>
    rw [Numeral.signed, if_pos rfl] at hi
    rw [ofInteger, if_pos rfl, if_neg (hzero rfl), hi]
  | false =>
    rw [Numeral.signed, if_neg Bool.false_ne_true] at hi
    rw [ofInteger, if_neg Bool.false_ne_true, hi]

/-- An integer that does not fit is rounded to its value as a field. -/
theorem value?_ofInteger_of_none (hn : n < UInt64.size) (hzero : negative = true → n ≠ 0)
    (hi : Numeral.toInt64? (Numeral.signed negative n) = none) :
    Record.value? (.number (ofInteger negative n)) =
      some (.float (.signed negative (.ofRatio n 1))) := by
  cases negative with
  | true =>
    rw [Numeral.signed, if_pos rfl] at hi
    rw [ofInteger, if_pos rfl, if_neg (hzero rfl), hi]
    rfl
  | false =>
    rw [← Numeral.ofInt_signed hzero]
    rw [Numeral.signed, if_neg Bool.false_ne_true] at hi ⊢
    rw [ofInteger, if_neg Bool.false_ne_true, hi, Record.value?, UInt64.toNat_ofNat_of_lt' hn]

/-- What is read of an integer of less than 64 bits is equal to the number nearest to it, and to the
integer of 64 bits with a sign if it is one. -/
theorem compare_ofInteger (hn : n < UInt64.size) {v : Value}
    (hv : Record.value? (.number (ofInteger negative n)) = some v) :
    v.compare (.float (.signed negative (.ofRatio n 1))) = some .eq ∧
      ∀ i, Numeral.toInt64? (Numeral.signed negative n) = some i →
        v.compare (.integer i) = some .eq := by
  by_cases hzero : negative = true ∧ n = 0
  · obtain ⟨rfl, rfl⟩ := hzero
    rw [ofInteger_zero] at hv
    cases hv
    refine ⟨?_, fun i hi => ?_⟩
    · rw [Rank.ofRatio_zero]
      rfl
    · rw [Value.compare, Numeral.toInt_of_toInt64? hi]
      simp [Numeral.signed, Binary64.ofInt, Rank.ofRatio_zero, Binary64.compare, key, Rank.zero]
  · have hzero : negative = true → n ≠ 0 := fun h h' => hzero ⟨h, h'⟩
    cases hi : Numeral.toInt64? (Numeral.signed negative n) with
    | some i =>
      rw [ofInteger_of_some hzero hi] at hv
      cases hv
      refine ⟨?_, fun j hj => ?_⟩
      · rw [Value.compare, Numeral.toInt_of_toInt64? hi, Numeral.ofInt_signed hzero]
        exact compare_signed_self _ _
      · cases hj
        exact congrArg some (Std.LawfulEqOrd.compare_eq_iff_eq.mpr rfl)
    | none =>
      rw [value?_ofInteger_of_none hn hzero hi] at hv
      cases hv
      exact ⟨compare_signed_self _ _, fun i hi => absurd hi.symm (Option.some_ne_none i)⟩

end Integers

/-! ## One rounded step -/

theorem nearestPower_eq (k : Nat) : nearestPower k = .ofRatio (10 ^ k) 1 := by
  rw [nearestPower, Decimal.rank_eq_exactRank, Decimal.exactRank, if_pos (Int.natCast_nonneg k),
    Nat.one_mul, Decimal.powerOfTen_eq, Int.toNat_natCast]

theorem isNatural_nearestPower {k : Nat} (hk : k ≤ 22) :
    Rank.IsNatural (nearestPower k) (10 ^ k) := by
  have hpower : 10 ^ k = 5 ^ k * 2 ^ k := (Nat.mul_pow 5 2 k).symm ▸ rfl
  have hfive : 5 ^ k ≤ 2 ^ 53 := Nat.le_trans (Nat.pow_le_pow_right (by decide) hk) (by decide)
  rw [nearestPower_eq, hpower]
  exact Rank.isNatural_ofRatio hfive (by omega)

theorem isNatural_significand {m : Nat} (hm : m ≤ 2 ^ 53) : Rank.IsNatural (.ofRatio m 1) m := by
  simpa using Rank.isNatural_ofRatio (k := 0) hm (by decide)

theorem eq_zero_of_isNatural {n : Nat} (h : Rank.IsNatural .zero n) : n = 0 := by
  have hunits : 0 = n * Rank.unitsPerOne := h
  exact (Nat.mul_eq_zero.mp hunits.symm).resolve_right (Nat.ne_of_gt Rank.unitsPerOne_pos)

theorem mul_ten_pow_lt {m k : Nat} (hm : m < UInt64.size) (hk : k ≤ 22) :
    m * 10 ^ k < 2 ^ 200 :=
  calc m * 10 ^ k ≤ UInt64.size * 10 ^ 22 :=
        Nat.mul_le_mul (Nat.le_of_lt hm) (Nat.pow_le_pow_right (by decide) hk)
    _ < 2 ^ 200 := by decide

/-- Powers of ten up to `10 ^ 22` are magnitudes, so only the product or quotient is rounded. -/
theorem scale_eq_rank {m : Nat} {x : Int} (hm : m ≤ 2 ^ 53) (hlow : -22 ≤ x) (hhigh : x ≤ 22) :
    scale (.ofRatio m 1) x = some (Decimal.rank ⟨m, x⟩) := by
  have hnatural := isNatural_significand hm
  rw [Decimal.rank_eq_exactRank, Decimal.exactRank, scale, Decimal.powerOfTen_eq,
    Decimal.powerOfTen_eq]
  dsimp only
  by_cases hneg : x < 0
  · have hsteps : ((-x).toNat - 1) / 308 = 0 := Nat.div_eq_of_lt (by omega)
    rw [if_pos hneg, if_neg (Int.not_le.mpr hneg), scaleDown, hsteps, shrink, Nat.mul_zero,
      Nat.sub_zero, Rank.div_eq_ofRatio hnatural (isNatural_nearestPower (by omega))]
  · have hproduct : m * 10 ^ x.toNat < 2 ^ 200 :=
      mul_ten_pow_lt (Nat.lt_of_le_of_lt hm (by decide)) (by omega)
    rw [if_neg hneg, if_pos (Int.not_lt.mp hneg)]
    split
    · next hzero =>
      rw [hzero] at hnatural
      rw [eq_zero_of_isNatural hnatural, Nat.zero_mul, Rank.ofRatio_zero]
    · rw [if_neg (Int.not_lt.mpr (Int.le_trans hhigh (by decide))),
        Rank.mul_eq_ofRatio hnatural (isNatural_nearestPower (by omega)),
        if_neg (Rank.ofRatio_ne_infinity hproduct 1)]

theorem shrink_zero : ∀ steps, shrink steps .zero = .zero
  | 0 => rfl
  | _ + 1 => if_pos rfl

theorem scale_ofRatio_zero (x : Int) : scale (.ofRatio 0 1) x = some .zero := by
  rw [Rank.ofRatio_zero]
  rcases Int.lt_or_le x 0 with h | h
  · have hdiv : ∀ r, Rank.div .zero r = .zero := fun r => by
      rw [Rank.div, show Rank.units .zero = 0 from rfl, Nat.zero_mul, Rank.nearest_zero]
    rw [scale, if_pos h, scaleDown, shrink_zero, hdiv]
  · exact scale_zero x h

end Number

/-! ## What is equal to the nearest number -/

/-- The text is that of an integer of less than 64 bits, of zero, or of digits of at most 53 bits
times a power of ten that is a number of the format. -/
def NumberText.IsExact (t : NumberText) : Prop :=
  (t.IsInteger ∧ t.decimal.significand < UInt64.size) ∨ t.decimal.significand = 0 ∨
    (t.decimal.significand ≤ 2 ^ 53 ∧ -22 ≤ t.decimal.exponent ∧ t.decimal.exponent ≤ 22)

instance (t : NumberText) : Decidable t.IsExact := by
  unfold NumberText.IsExact
  infer_instance

namespace NumberText

variable {t : NumberText}

/-- A number with a point or an exponent is read as the nearest one. -/
theorem ofParts_eq_nearest (h : t.decimal.significand = 0 ∨
    (t.decimal.significand ≤ 2 ^ 53 ∧ -22 ≤ t.decimal.exponent ∧ t.decimal.exponent ≤ 22)) :
    Number.ofParts t.negative t.decimal.significand t.decimal.exponent =
      some (.real t.nearest) := by
  have hscale : Number.scale (.ofRatio t.decimal.significand 1) t.decimal.exponent =
      some t.decimal.rank := by
    rcases h with h | ⟨hm, hlow, hhigh⟩
    · rw [h, Number.scale_ofRatio_zero, Decimal.rank, if_pos h]
    · exact Number.scale_eq_rank hm hlow hhigh
  rw [Number.ofParts, hscale]
  rfl

theorem exponent_of_isInteger (h : t.IsInteger) : t.decimal.exponent = 0 := by
  simp [decimal, exponentValue, h.1, h.2]

theorem nearest_of_isInteger (h : t.IsInteger) :
    t.nearest = .signed t.negative (.ofRatio t.decimal.significand 1) := by
  rw [nearest, Decimal.toBinary64, Decimal.rank_eq_exactRank, Decimal.exactRank,
    exponent_of_isInteger h, if_pos (Int.le_refl 0), Int.toNat_zero, Decimal.powerOfTen_eq,
    Nat.pow_zero, Nat.mul_one]

theorem IsExact.significand_lt (h : t.IsExact) : t.decimal.significand < UInt64.size := by
  have hsize : 2 ^ 53 < UInt64.size := by decide
  rcases h with ⟨-, h⟩ | h | ⟨h, -, -⟩ <;> omega

theorem IsExact.isFinite_nearest (h : t.IsExact) : t.nearest.isFinite = true := by
  have hlt := h.significand_lt
  have hrank : t.decimal.rank ≠ .infinity := by
    rw [Decimal.rank_eq_exactRank, Decimal.exactRank]
    split
    · refine Rank.ofRatio_ne_infinity ?_ 1
      rw [Decimal.powerOfTen_eq]
      rcases h with ⟨hinteger, -⟩ | hzero | ⟨-, -, hhigh⟩
      · rw [exponent_of_isInteger hinteger]
        exact Number.mul_ten_pow_lt hlt (Nat.zero_le _)
      · simp [hzero]
      · exact Number.mul_ten_pow_lt hlt (by omega)
    · exact Rank.ofRatio_ne_infinity (Nat.lt_trans hlt (by decide)) _
  simpa [nearest, Decimal.toBinary64, isFinite] using hrank

/-- **What is read of such a number is equal to the number nearest to its text**, and to the
integer of 64 bits that the text spells if it spells one. -/
theorem compare_nearest (h : t.IsExact) {n : Number} (hn : t.number? = some n) {v : Value}
    (hv : Record.value? (.number n) = some v) :
    v.compare (.float t.nearest) = some .eq ∧ ∀ i, t.IsInteger →
      Numeral.toInt64? (Numeral.signed t.negative t.decimal.significand) = some i →
        v.compare (.integer i) = some .eq := by
  have hlt := h.significand_lt
  rw [t.number?_eq hlt] at hn
  by_cases hinteger : t.IsInteger
  · rw [if_pos hinteger] at hn
    cases hn
    rw [nearest_of_isInteger hinteger]
    obtain ⟨hfloat, hint⟩ := Number.compare_ofInteger hlt hv
    exact ⟨hfloat, fun i _ => hint i⟩
  · rw [if_neg hinteger, ofParts_eq_nearest (h.resolve_left fun h => hinteger h.1)] at hn
    cases hn
    cases hv
    exact ⟨compare_signed_self _ _, fun _ h => absurd h hinteger⟩

end NumberText

end RecordFilter.Json
