import Mathlib
import RecordFilter.Binary64.Rounding

/-!
# What is nearest

The magnitude nearest to a fraction depends on its value only, not on how it is written, and a
fraction that is a magnitude of the format is its own nearest.

* `nearest_mul_right`: a common factor of numerator and denominator makes no difference;
* `nearest_units`: every magnitude is the nearest to its number of units;
* `nearest_of_large`, `nearest_of_small`: where everything is infinity or zero;
* `nearest_ne_infinity`: where nothing is infinity.
-/

namespace RecordFilter.Binary64

theorem nearestEven_mul_right (n d : Nat) {c : Nat} (hc : 0 < c) :
    nearestEven (n * c) (d * c) = nearestEven n d := by
  have hlt : 2 * (n % d * c) < d * c ↔ 2 * (n % d) < d := by
    rw [← Nat.mul_assoc]
    exact Nat.mul_lt_mul_right hc
  have heq : 2 * (n % d * c) = d * c ↔ 2 * (n % d) = d := by
    rw [← Nat.mul_assoc]
    exact Nat.mul_left_inj (Nat.ne_of_gt hc)
  simp only [nearestEven, Nat.mul_div_mul_right _ _ hc, Nat.mul_mod_mul_right, hlt, heq]

theorem nearestEven_le (n d : Nat) : nearestEven n d ≤ n / d + 1 := by
  unfold nearestEven
  dsimp only
  split
  · exact Nat.le_succ _
  · exact Nat.le_refl _

namespace Rank

theorem unitsPerOne_eq : unitsPerOne = 2 ^ 1074 := by
  rw [unitsPerOne, Nat.shiftLeft_eq, Nat.one_mul]

theorem nearest_mul_right (n d : Nat) {c : Nat} (hc : 0 < c) :
    nearest (n * c) (d * c) = nearest n d := by
  have hblock : blockOf (n * c) (d * c) = blockOf n d := by
    rw [blockOf, Nat.mul_div_mul_right _ _ hc, blockOf]
  have hshift : (d * c) <<< blockOf n d = d <<< blockOf n d * c := by
    rw [Nat.shiftLeft_eq, Nat.shiftLeft_eq, Nat.mul_right_comm]
  apply Fin.ext
  simp only [nearest, hblock, hshift, nearestEven_mul_right _ _ hc]

/-! ## Magnitudes of the format -/

/-- How many multiples of `2 ^ k` make up the magnitude tells its rank. -/
theorem nearest_of_block {r : Rank} {k m : Nat} (hblock : blockOf (m * 2 ^ k) 1 = k)
    (hr : r.val = k * blockSize + m) : nearest (m * 2 ^ k) 1 = r := by
  have hle : k * blockSize + m ≤ infinity.val := by
    rw [← hr]
    exact Nat.le_of_lt_succ r.isLt
  apply Fin.ext
  simp only [nearest, hblock, Nat.shiftLeft_eq, Nat.one_mul]
  rw [nearestEven_mul m (Nat.two_pow_pos k), Nat.min_eq_left hle, hr]

theorem log2_of_block {m : Nat} (k : Nat) (hm : m < blockSize) :
    ((blockSize + m) * 2 ^ k).log2 = 52 + k := by
  have hpos : 0 < 2 ^ k := Nat.two_pow_pos k
  have hne : (blockSize + m) * 2 ^ k ≠ 0 :=
    Nat.mul_ne_zero (Nat.ne_of_gt (Nat.add_pos_left (by decide) m)) (Nat.ne_of_gt hpos)
  refine (Nat.log2_eq_iff hne).mpr ⟨?_, ?_⟩
  · rw [Nat.pow_add]
    exact Nat.mul_le_mul_right _ (Nat.le_add_right _ m)
  · rw [show 52 + k + 1 = 53 + k by omega, Nat.pow_add]
    refine Nat.mul_lt_mul_of_pos_right ?_ hpos
    calc blockSize + m < blockSize + blockSize := Nat.add_lt_add_left hm _
      _ = 2 ^ 53 := by decide

theorem nearest_units (r : Rank) : nearest r.units 1 = r := by
  rcases Nat.lt_or_ge r.val blockSize with h | h
  · have hunits : r.units = r.val * 2 ^ 0 := by
      rw [units, if_pos h, Nat.pow_zero, Nat.mul_one]
    rw [hunits]
    refine nearest_of_block ?_ (by omega)
    rw [blockOf, Nat.pow_zero, Nat.mul_one, Nat.div_one]
    refine Nat.sub_eq_zero_of_le ?_
    by_cases hzero : r.val = 0
    · simp [hzero]
    · exact Nat.le_of_lt ((Nat.log2_lt hzero).mpr h)
  · have hunits : r.units = (blockSize + r.val % blockSize) * 2 ^ (r.val / blockSize - 1) := by
      rw [units, if_neg (Nat.not_lt.mpr h), Nat.shiftLeft_eq]
    have hsplit := Nat.div_add_mod r.val blockSize
    have hmod : r.val % blockSize < blockSize := Nat.mod_lt _ (by decide)
    have hdiv : 0 < r.val / blockSize := Nat.div_pos h (by decide)
    rw [hunits]
    generalize r.val / blockSize = b at *
    generalize r.val % blockSize = m at *
    refine nearest_of_block ?_ ?_
    · have hlog := log2_of_block (b - 1) hmod
      rw [blockOf, Nat.div_one, hlog]
      omega
    · obtain ⟨b, rfl⟩ := Nat.exists_eq_succ_of_ne_zero (Nat.ne_of_gt hdiv)
      rw [← hsplit, Nat.succ_sub_one, Nat.mul_succ, Nat.mul_comm]
      omega

/-! ## Beyond the format -/

theorem nearest_of_large {n d : Nat} (h : 2 ^ 2099 ≤ n / d) : nearest n d = infinity := by
  have hne : n / d ≠ 0 := Nat.ne_of_gt (Nat.lt_of_lt_of_le (Nat.two_pow_pos _) h)
  have hblock : 2047 ≤ blockOf n d := by
    have := (Nat.le_log2 hne).mpr h
    rw [blockOf]
    omega
  have hinfinity : infinity.val = 2047 * blockSize := by decide
  apply Fin.ext
  refine Nat.min_eq_right ?_
  rw [hinfinity]
  exact Nat.le_trans (Nat.mul_le_mul_right _ hblock) (Nat.le_add_right _ _)

theorem nearest_of_small {n d : Nat} (h : 2 * n < d) : nearest n d = zero := by
  have hlt : n < d := by omega
  have hdiv : n / d = 0 := Nat.div_eq_of_lt hlt
  have hblock : blockOf n d = 0 := by
    rw [blockOf, hdiv]
    rfl
  have hnearest : nearestEven n d = 0 := by
    simp only [nearestEven, hdiv, Nat.mod_eq_of_lt hlt]
    exact if_pos (Or.inl h)
  apply Fin.ext
  simp only [nearest, hblock, Nat.shiftLeft_zero, hnearest]
  simp [zero]

/-- The multiple of the distance of a block that is nearest lies in the block, or right after it. -/
theorem nearestEven_block_le (n d : Nat) :
    nearestEven n (d <<< blockOf n d) ≤ 2 * blockSize := by
  have hquotient : n / (d <<< blockOf n d) < 2 ^ 53 := by
    rw [Nat.shiftLeft_eq, ← Nat.div_div_eq_div_mul]
    refine Nat.div_lt_of_lt_mul ?_
    rw [← Nat.pow_add]
    exact Nat.lt_of_lt_of_le Nat.lt_log2_self
      (Nat.pow_le_pow_right (by decide) (by rw [blockOf]; omega))
  exact Nat.le_trans (nearestEven_le _ _) hquotient

theorem nearest_ne_infinity {n d : Nat} (h : n / d < 2 ^ 2097) : nearest n d ≠ infinity := by
  have hblock : blockOf n d < 2045 := by
    rw [blockOf]
    by_cases hzero : n / d = 0
    · simp [hzero]
    · have := (Nat.log2_lt hzero).mpr h
      omega
  have hle := nearestEven_block_le n d
  have hinfinity : infinity.val = 2047 * blockSize := by decide
  have hlt : blockOf n d * blockSize + nearestEven n (d <<< blockOf n d) < infinity.val := by
    have hmul : blockOf n d * blockSize < 2045 * blockSize :=
      Nat.mul_lt_mul_of_pos_right hblock (by decide)
    omega
  intro heq
  have hval := congrArg Fin.val heq
  simp only [nearest] at hval
  omega

/-! ## Ratios -/

theorem ofRatio_mul_right (n d : Nat) {c : Nat} (hc : 0 < c) :
    ofRatio (n * c) (d * c) = ofRatio n d := by
  rw [ofRatio, Nat.mul_right_comm, nearest_mul_right _ _ hc, ofRatio]

theorem ofRatio_zero (d : Nat) : ofRatio 0 d = zero := by
  rw [ofRatio, Nat.zero_mul, nearest_zero]

end Rank

theorem isFinite_ofInt (n : Int64) : (ofInt n.toInt).isFinite = true := by
  have hbound : n.toInt.natAbs < 2 ^ 64 := by
    have hlow := n.le_toInt
    have hhigh := n.toInt_lt
    omega
  have hfinite : Rank.ofRatio n.toInt.natAbs 1 ≠ Rank.infinity := by
    refine Rank.nearest_ne_infinity ?_
    rw [Nat.div_one, Rank.unitsPerOne_eq]
    calc n.toInt.natAbs * 2 ^ 1074 < 2 ^ 64 * 2 ^ 1074 :=
          Nat.mul_lt_mul_of_pos_right hbound (Nat.two_pow_pos _)
      _ ≤ 2 ^ 2097 := by
          rw [← pow_add]
          exact Nat.pow_le_pow_right (by decide) (by decide)
  simpa [ofInt, isFinite] using hfinite

end RecordFilter.Binary64
