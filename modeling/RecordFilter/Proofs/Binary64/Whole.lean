import Mathlib
import RecordFilter.Proofs.Binary64.Nearest

/-!
# Natural numbers of the format

A natural number is a magnitude of the format when it is a number of at most 53 bits times a power
of two that is not too large. Products and quotients of such magnitudes are rounded once, like the
exact result.

* `exists_units`: the magnitudes that are a number of at most 53 bits times a power of two;
* `isNatural_ofRatio`: the natural numbers among them are not rounded;
* `mul_eq_ofRatio`, `div_eq_ofRatio`: products and quotients of natural numbers.
-/

namespace RecordFilter.Binary64.Rank

theorem units_of_block {k m : Nat} (hlow : blockSize ≤ m) (hhigh : m ≤ 2 * blockSize)
    (h : k * blockSize + m < 0x7FF0000000000001) :
    units ⟨k * blockSize + m, h⟩ = m * 2 ^ k := by
  have hpos : 0 < blockSize := by decide
  rw [units, if_neg (by dsimp only; omega), Nat.shiftLeft_eq]
  dsimp only
  rcases Nat.eq_or_lt_of_le hhigh with rfl | hlt
  · rw [show k * blockSize + 2 * blockSize = (k + 2) * blockSize by ring,
      Nat.mul_mod_left, Nat.mul_div_cancel _ hpos, Nat.add_zero, Nat.add_sub_assoc (by decide)]
    ring
  · obtain ⟨i, rfl⟩ := Nat.exists_eq_add_of_le hlow
    have hi : i < blockSize := by omega
    rw [show k * blockSize + (blockSize + i) = i + (k + 1) * blockSize by ring,
      Nat.add_mul_mod_self_right, Nat.mod_eq_of_lt hi, Nat.add_mul_div_right _ _ hpos,
      Nat.div_eq_of_lt hi]
    simp

theorem block_lt {k m : Nat} (hk : k ≤ 2045) (hm : m ≤ 2 * blockSize) :
    k * blockSize + m < 0x7FF0000000000001 := by
  have hmul : k * blockSize ≤ 2045 * blockSize := Nat.mul_le_mul_right _ hk
  have hblock : blockSize = 0x10000000000000 := rfl
  omega

theorem exists_units : ∀ {k m : Nat}, k ≤ 2045 → m ≤ 2 * blockSize →
    ∃ r : Rank, r.units = m * 2 ^ k := by
  intro k
  induction k with
  | zero =>
    intro m hk hm
    rcases Nat.lt_or_ge m blockSize with h | h
    · refine ⟨⟨m, by have := block_lt (Nat.zero_le _) hm; omega⟩, ?_⟩
      rw [units, if_pos h, Nat.pow_zero, Nat.mul_one]
    · exact ⟨_, units_of_block h hm (block_lt hk hm)⟩
  | succ k ih =>
    intro m hk hm
    rcases Nat.lt_or_ge m blockSize with h | h
    · -- A number of fewer bits is twice as large in units of half the size.
      obtain ⟨r, hr⟩ := ih (m := 2 * m) (by omega) (by omega)
      refine ⟨r, ?_⟩
      rw [hr, Nat.pow_succ', Nat.mul_left_comm, Nat.mul_assoc]
    · exact ⟨_, units_of_block h hm (block_lt hk hm)⟩

/-- The magnitude is the natural number. -/
def IsNatural (r : Rank) (n : Nat) : Prop := r.units = n * unitsPerOne

/-- A number of at most 53 bits times a power of two is not rounded. -/
theorem isNatural_ofRatio {m k : Nat} (hm : m ≤ 2 ^ 53) (hk : k ≤ 971) :
    IsNatural (ofRatio (m * 2 ^ k) 1) (m * 2 ^ k) := by
  obtain ⟨r, hr⟩ := exists_units (k := k + 1074) (m := m) (by omega) hm
  rw [IsNatural, ofRatio, unitsPerOne_eq, Nat.mul_assoc, ← Nat.pow_add, ← hr, nearest_units]

variable {a b : Rank} {m n : Nat}

theorem unitsPerOne_pos : 0 < unitsPerOne := by
  rw [unitsPerOne_eq]
  exact Nat.two_pow_pos 1074

theorem mul_eq_ofRatio (ha : IsNatural a m) (hb : IsNatural b n) :
    a.mul b = ofRatio (m * n) 1 := by
  rw [mul, ha, hb, ofRatio, ← nearest_mul_right _ 1 unitsPerOne_pos, Nat.one_mul,
    Nat.mul_mul_mul_comm, ← Nat.mul_assoc]

theorem div_eq_ofRatio (ha : IsNatural a m) (hb : IsNatural b n) : a.div b = ofRatio m n := by
  rw [div, ha, hb, ofRatio, nearest_mul_right _ _ unitsPerOne_pos]

theorem ofRatio_ne_infinity {n : Nat} (hn : n < 2 ^ 200) (d : Nat) :
    ofRatio n d ≠ infinity := by
  refine nearest_ne_infinity (Nat.lt_of_le_of_lt (Nat.div_le_self _ _) ?_)
  rw [unitsPerOne_eq]
  calc n * 2 ^ 1074 < 2 ^ 200 * 2 ^ 1074 := Nat.mul_lt_mul_of_pos_right hn (Nat.two_pow_pos _)
    _ ≤ 2 ^ 2097 := by
        rw [← Nat.pow_add]
        exact Nat.pow_le_pow_right (by decide) (by decide)

end RecordFilter.Binary64.Rank
