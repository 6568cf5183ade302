import Mathlib
import RecordFilter.Proofs.Binary64.Monotone
import RecordFilter.Proofs.Decimal.Exact

/-!
# Where numbers become infinite

The largest finite number is `2 ^ 1024 - 2 ^ 971`. A fraction is rounded to infinity from half a gap
above it on, and the half itself is, since the largest number has an odd significand.

* `nearest_eq_infinity_iff`, `ofRatio_eq_infinity_iff`: fractions;
* `isFinite_toBinary64_iff`: decimal fractions, by their exact values.
-/

namespace RecordFilter

namespace Binary64.Rank

/-- The half between the last multiple of `2 ^ (k + 1)` of a block and the block that follows. -/
def blockEnd (k : Nat) : Nat := (2 ^ 54 - 1) * 2 ^ k

theorem blockOf_blockEnd (k : Nat) : blockOf (blockEnd k) 1 = k + 1 := by
  have hpos : 0 < 2 ^ k := Nat.two_pow_pos k
  have hlog : (blockEnd k).log2 = 53 + k := by
    refine (Nat.log2_eq_iff (Nat.mul_ne_zero (by decide) (Nat.ne_of_gt hpos))).mpr ⟨?_, ?_⟩
    · rw [Nat.pow_add]
      exact Nat.mul_le_mul_right _ (by decide)
    · rw [Nat.add_right_comm, Nat.pow_add]
      exact Nat.mul_lt_mul_of_pos_right (by decide) hpos
  rw [blockOf, Nat.div_one, hlog]
  omega

theorem nearest_blockEnd (k : Nat) :
    (nearest (blockEnd k) 1).val = min ((k + 1) * blockSize + 2 ^ 53) infinity.val := by
  have hhalf : nearestEven (blockEnd k) (2 ^ (k + 1)) = 2 ^ 53 := by
    have hgap : 2 ^ (k + 1) = 2 * 2 ^ k := Nat.pow_succ'
    rw [blockEnd, hgap, nearestEven_mul_right _ 2 (Nat.two_pow_pos k)]
    decide
  simp only [nearest, blockOf_blockEnd, Nat.shiftLeft_eq, Nat.one_mul, hhalf]

theorem nearestEven_lt_of_lt {n d k : Nat} (h : n < blockEnd k * d) :
    nearestEven n (d * 2 ^ (k + 1)) < 2 ^ 53 := by
  have hhalf : 2 * n < (2 ^ 54 - 1) * (d * 2 ^ (k + 1)) := by
    calc 2 * n < 2 * (blockEnd k * d) := by omega
      _ = (2 ^ 54 - 1) * (d * 2 ^ (k + 1)) := by
        rw [blockEnd, Nat.pow_succ]
        ring
  generalize d * 2 ^ (k + 1) = gap at hhalf ⊢
  have hsplit := Nat.div_add_mod n gap
  have hquotient : n / gap < 2 ^ 53 := Nat.div_lt_of_lt_mul (by omega)
  unfold nearestEven
  dsimp only
  split
  · exact hquotient
  · next hup =>
    -- The last multiple of the block is not rounded up: its remainder is less than half a gap.
    have hlast : n / gap ≠ 2 ^ 53 - 1 := by
      intro hlast
      rw [hlast] at hsplit
      omega
    omega

/-- The least number of units that is rounded to infinity. -/
def unitsToInfinity : Nat := blockEnd 2044

theorem nearest_lt_of_lt {n d : Nat} (hd : 0 < d) (h : n < unitsToInfinity * d) :
    (nearest n d).val < infinity.val := by
  have hinfinity : infinity.val = 2045 * blockSize + 2 ^ 53 := by decide
  have hblock : blockOf n d ≤ 2045 := by
    calc blockOf n d ≤ blockOf (unitsToInfinity * d) d := blockOf_mono (Nat.le_of_lt h) d
      _ = blockOf unitsToInfinity 1 := by
        rw [blockOf, Nat.mul_div_cancel _ hd, blockOf, Nat.div_one]
      _ = 2045 := blockOf_blockEnd 2044
  have hlt : blockOf n d * blockSize + nearestEven n (d <<< blockOf n d) < infinity.val := by
    rw [hinfinity]
    rcases Nat.lt_or_eq_of_le hblock with hblock | hblock
    · have hle := nearestEven_block_le n d
      have hmul : blockOf n d * blockSize ≤ 2044 * blockSize :=
        Nat.mul_le_mul_right _ (Nat.le_of_lt_succ hblock)
      have hsize : 0 < blockSize := by decide
      omega
    · rw [hblock, Nat.shiftLeft_eq]
      exact Nat.add_lt_add_left (nearestEven_lt_of_lt (k := 2044) h) _
  exact Nat.lt_of_le_of_lt (Nat.min_le_left _ _) hlt

/-- **What is rounded to infinity**, in units. -/
theorem nearest_eq_infinity_iff (n : Nat) {d : Nat} (hd : 0 < d) :
    nearest n d = infinity ↔ unitsToInfinity * d ≤ n := by
  constructor
  · intro hinfinity
    by_contra hlt
    exact Nat.ne_of_lt (nearest_lt_of_lt hd (Nat.not_le.mp hlt)) (congrArg Fin.val hinfinity)
  · intro hle
    have hmono := nearest_mono hle d
    have hhalf : (nearest (unitsToInfinity * d) d).val = infinity.val := by
      calc (nearest (unitsToInfinity * d) d).val
          = (nearest (unitsToInfinity * d) (1 * d)).val := by rw [Nat.one_mul]
        _ = (nearest (blockEnd 2044) 1).val := by rw [nearest_mul_right _ 1 hd, unitsToInfinity]
        _ = infinity.val := (nearest_blockEnd 2044).trans (by decide)
    rw [hhalf] at hmono
    exact Fin.ext (Nat.le_antisymm (Nat.le_of_lt_succ (nearest n d).isLt) hmono)

theorem unitsToInfinity_eq : unitsToInfinity = (2 ^ 54 - 1) * 2 ^ 970 * unitsPerOne := by
  rw [unitsToInfinity, blockEnd, unitsPerOne_eq, Nat.mul_assoc, ← Nat.pow_add]

/-- A fraction is rounded to infinity from `2 ^ 1024 - 2 ^ 970` on. -/
theorem ofRatio_eq_infinity_iff (n : Nat) {d : Nat} (hd : 0 < d) :
    ofRatio n d = infinity ↔ (2 ^ 1024 - 2 ^ 970 : ℚ) ≤ n / d := by
  have hbound : (2 ^ 1024 - 2 ^ 970 : ℚ) = ((2 ^ 54 - 1) * 2 ^ 970 : Nat) := by
    have hsplit : (2 : ℚ) ^ 1024 = 2 ^ 54 * 2 ^ 970 := pow_add 2 54 970
    rw [hsplit, Nat.cast_mul, Nat.cast_pow, Nat.cast_sub Nat.one_le_two_pow, Nat.cast_pow,
      Nat.cast_ofNat, Nat.cast_one, sub_mul, one_mul]
  have hpos : (0 : ℚ) < d := Nat.cast_pos.mpr hd
  rw [ofRatio, nearest_eq_infinity_iff _ hd, unitsToInfinity_eq, Nat.mul_right_comm,
    Nat.mul_le_mul_right_iff unitsPerOne_pos, hbound, le_div_iff₀ hpos, ← Nat.cast_mul, Nat.cast_le]

end Binary64.Rank

namespace Decimal

open Binary64

/-- The exact value of the decimal fraction. -/
def value (d : Decimal) : ℚ := d.significand * 10 ^ d.exponent

/-- A decimal fraction is rounded to infinity from `2 ^ 1024 - 2 ^ 970` on. -/
theorem rank_eq_infinity_iff (d : Decimal) : d.rank = .infinity ↔ 2 ^ 1024 - 2 ^ 970 ≤ d.value := by
  have hpow : ∀ n, 0 < powerOfTen n := fun n => Nat.pow_pos (by decide)
  rw [rank_eq_exactRank, exactRank, value]
  split
  · next he =>
    obtain ⟨n, hn⟩ := Int.eq_ofNat_of_zero_le he
    rw [Rank.ofRatio_eq_infinity_iff _ Nat.one_pos, hn, Int.toNat_natCast, powerOfTen_eq]
    push_cast
    rw [div_one, zpow_natCast]
  · next he =>
    obtain ⟨n, hn⟩ : ∃ n : Nat, d.exponent = -n := ⟨d.exponent.natAbs, by omega⟩
    rw [Rank.ofRatio_eq_infinity_iff _ (hpow _), hn, Int.neg_neg, Int.toNat_natCast, powerOfTen_eq]
    push_cast
    rw [zpow_neg, zpow_natCast, div_eq_mul_inv]

/-- **The number nearest to a decimal fraction is finite** below `2 ^ 1024 - 2 ^ 970`. -/
theorem isFinite_toBinary64_iff (negative : Bool) (d : Decimal) :
    (d.toBinary64 negative).isFinite = true ↔ d.value < 2 ^ 1024 - 2 ^ 970 := by
  rw [toBinary64, isFinite, bne_iff_ne, ne_eq, rank_eq_infinity_iff, not_le]

end Decimal

end RecordFilter
