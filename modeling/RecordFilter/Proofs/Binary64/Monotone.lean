import Mathlib
import RecordFilter.Proofs.Binary64.Whole

/-!
# Rounding keeps the order

A larger number is never rounded to a smaller one, but two numbers may be rounded to the same. The
**place** of an integer is the key of the number nearest to it; integers of at most 53 bits are
numbers of the format themselves, so that each of them has a place of its own.

* `nearest_mono`: of two fractions with one denominator;
* `place_mono`: of two integers, with either sign;
* `ofInt_eq_iff`: integers have one place when they are rounded to the same number;
* `eq_of_place_eq`: integers of at most 53 bits are told apart.
-/

namespace RecordFilter.Binary64

theorem div_le_nearestEven (n d : Nat) : n / d ≤ nearestEven n d := by
  unfold nearestEven
  dsimp only
  split
  · exact Nat.le_refl _
  · exact Nat.le_succ _

theorem nearestEven_mono {n n' : Nat} (h : n ≤ n') (d : Nat) :
    nearestEven n d ≤ nearestEven n' d := by
  rcases Nat.lt_or_eq_of_le (Nat.div_le_div_right (c := d) h) with hlt | heq
  · calc nearestEven n d ≤ n / d + 1 := nearestEven_le n d
      _ ≤ n' / d := hlt
      _ ≤ nearestEven n' d := div_le_nearestEven n' d
  · -- Between the same multiples of `d` the larger number has the larger remainder.
    have hsplit := Nat.div_add_mod n d
    have hsplit' := Nat.div_add_mod n' d
    have hmod : n % d ≤ n' % d := by
      rw [← hsplit, ← hsplit', heq] at h
      exact Nat.le_of_add_le_add_left h
    unfold nearestEven
    dsimp only
    rw [heq]
    split <;> split <;> omega

namespace Rank

theorem blockOf_mono {n n' : Nat} (h : n ≤ n') (d : Nat) : blockOf n d ≤ blockOf n' d := by
  have hdiv : n / d ≤ n' / d := Nat.div_le_div_right h
  have hlog : (n / d).log2 ≤ (n' / d).log2 := by
    by_cases hzero : n / d = 0
    · simp [hzero]
    · have hzero' : n' / d ≠ 0 :=
        Nat.ne_of_gt (Nat.lt_of_lt_of_le (Nat.pos_of_ne_zero hzero) hdiv)
      exact (Nat.le_log2 hzero').mpr (Nat.le_trans (Nat.log2_self_le hzero) hdiv)
  exact Nat.sub_le_sub_right hlog 52

theorem le_nearestEven_block {n d : Nat} (h : blockOf n d ≠ 0) :
    blockSize ≤ nearestEven n (d <<< blockOf n d) := by
  have hzero : n / d ≠ 0 := by
    intro hzero
    rw [blockOf, hzero] at h
    exact h rfl
  have hlog : (n / d).log2 = 52 + blockOf n d := by
    rw [blockOf] at h ⊢
    omega
  have hquotient : 2 ^ 52 ≤ n / (d <<< blockOf n d) := by
    rw [Nat.shiftLeft_eq, ← Nat.div_div_eq_div_mul, Nat.le_div_iff_mul_le (Nat.two_pow_pos _),
      ← Nat.pow_add, ← hlog]
    exact Nat.log2_self_le hzero
  exact Nat.le_trans hquotient (div_le_nearestEven _ _)

/-- **A larger fraction is not rounded to a smaller magnitude.** -/
theorem nearest_mono {n n' : Nat} (h : n ≤ n') (d : Nat) :
    (nearest n d).val ≤ (nearest n' d).val := by
  have hvalue : blockOf n d * blockSize + nearestEven n (d <<< blockOf n d) ≤
      blockOf n' d * blockSize + nearestEven n' (d <<< blockOf n' d) := by
    rcases Nat.lt_or_eq_of_le (blockOf_mono h d) with hlt | heq
    · -- What ends one block is not after what begins the next.
      calc blockOf n d * blockSize + nearestEven n (d <<< blockOf n d)
          ≤ blockOf n d * blockSize + 2 * blockSize :=
            Nat.add_le_add_left (nearestEven_block_le n d) _
        _ = (blockOf n d + 1) * blockSize + blockSize := by ring
        _ ≤ blockOf n' d * blockSize + blockSize :=
            Nat.add_le_add_right (Nat.mul_le_mul_right _ hlt) _
        _ ≤ blockOf n' d * blockSize + nearestEven n' (d <<< blockOf n' d) :=
            Nat.add_le_add_left (le_nearestEven_block (Nat.ne_of_gt (Nat.zero_lt_of_lt hlt))) _
    · rw [heq]
      exact Nat.add_le_add_left (nearestEven_mono h _) _
  exact min_le_min_right _ hvalue

theorem ofRatio_mono {n n' : Nat} (h : n ≤ n') (d : Nat) :
    (ofRatio n d).val ≤ (ofRatio n' d).val := nearest_mono (Nat.mul_le_mul_right _ h) d

end Rank

/-! ## Integers -/

/-- The place of an integer among the numbers: the key of the number nearest to it. -/
def place (n : Int) : Int := key (n < 0) (Rank.ofRatio n.natAbs 1)

theorem place_of_nonneg {n : Int} (h : 0 ≤ n) : place n = (Rank.ofRatio n.natAbs 1).val := by
  simp [place, key, Int.not_lt.mpr h]

theorem place_of_neg {n : Int} (h : n < 0) : place n = -((Rank.ofRatio n.natAbs 1).val : Int) := by
  simp [place, key, h]

/-- **A larger integer is not rounded to a smaller number.** -/
theorem place_mono {m n : Int} (h : m ≤ n) : place m ≤ place n := by
  rcases lt_or_ge m 0 with hm | hm
  · rcases lt_or_ge n 0 with hn | hn
    · have hranks := Rank.ofRatio_mono (show n.natAbs ≤ m.natAbs by omega) 1
      rw [place_of_neg hm, place_of_neg hn]
      omega
    · rw [place_of_neg hm, place_of_nonneg hn]
      omega
  · have hn : 0 ≤ n := Int.le_trans hm h
    have hranks := Rank.ofRatio_mono (show m.natAbs ≤ n.natAbs by omega) 1
    rw [place_of_nonneg hm, place_of_nonneg hn]
    omega

theorem compare_of_place {m n : Int} {o : Ordering} (ho : o ≠ .eq)
    (h : Ord.compare (place m) (place n) = o) : Ord.compare m n = o := by
  cases o with
  | eq => exact absurd rfl ho
  | lt =>
    rw [compare_lt_iff_lt] at h ⊢
    exact lt_of_not_ge fun hle => not_le_of_gt h (place_mono hle)
  | gt =>
    rw [compare_gt_iff_gt] at h ⊢
    exact lt_of_not_ge fun hle => not_le_of_gt h (place_mono hle)

theorem compare_place {m n : Int} (hne : place m ≠ place n) :
    Ord.compare (place m) (place n) = Ord.compare m n :=
  (compare_of_place (fun heq => hne (compare_eq_iff_eq.mp heq)) rfl).symm

theorem Rank.eq_of_ofRatio_eq {m n : Nat} (hm : m ≤ 2 ^ 53) (hn : n ≤ 2 ^ 53)
    (h : (ofRatio m 1).val = (ofRatio n 1).val) : m = n := by
  have hunits : ∀ {k : Nat}, k ≤ 2 ^ 53 → (ofRatio k 1).units = k * unitsPerOne := fun hk => by
    have hnatural := isNatural_ofRatio hk (Nat.zero_le 971)
    rwa [Nat.pow_zero, Nat.mul_one] at hnatural
  have heq : m * unitsPerOne = n * unitsPerOne := by
    rw [← hunits hm, ← hunits hn, Fin.ext h]
  exact Nat.eq_of_mul_eq_mul_right unitsPerOne_pos heq

theorem Rank.ofRatio_pos {n : Nat} (h : n ≠ 0) : 0 < (ofRatio n 1).val := by
  have hone : (ofRatio 1 1).val ≠ 0 := by
    intro hval
    have hzero : (ofRatio 0 1).val = 0 := by
      rw [ofRatio_zero]
      rfl
    exact absurd (eq_of_ofRatio_eq (by decide) (by decide) (hval.trans hzero.symm)) (by decide)
  have hmono : (ofRatio 1 1).val ≤ (ofRatio n 1).val := ofRatio_mono (Nat.pos_of_ne_zero h) 1
  omega

theorem place_neg_of_neg {n : Int} (h : n < 0) : place n < 0 := by
  have hpos := Rank.ofRatio_pos (n := n.natAbs) (by omega)
  rw [place_of_neg h]
  omega

theorem place_nonneg_of_nonneg {n : Int} (h : 0 ≤ n) : 0 ≤ place n := by
  rw [place_of_nonneg h]
  exact Int.natCast_nonneg _

theorem ofInt_eq_iff {m n : Int} : ofInt m = ofInt n ↔ place m = place n := by
  constructor
  · intro h
    rw [ofInt, ofInt, signed.injEq] at h
    rw [place, place, h.1, h.2]
  · intro h
    have hsign : m < 0 ↔ n < 0 := by
      rcases lt_or_ge m 0 with hm | hm <;> rcases lt_or_ge n 0 with hn | hn
      · exact iff_of_true hm hn
      · have := place_neg_of_neg hm
        have := place_nonneg_of_nonneg hn
        omega
      · have := place_nonneg_of_nonneg hm
        have := place_neg_of_neg hn
        omega
      · exact iff_of_false (not_lt.mpr hm) (not_lt.mpr hn)
    have hrank : Rank.ofRatio m.natAbs 1 = Rank.ofRatio n.natAbs 1 := by
      apply Fin.ext
      simp only [place, key, hsign] at h
      split at h <;> omega
    rw [ofInt, ofInt, hrank, decide_eq_decide.mpr hsign]

/-- **Integers of at most 53 bits have places of their own.** -/
theorem eq_of_place_eq {m n : Int} (hm : m.natAbs ≤ 2 ^ 53) (hn : n.natAbs ≤ 2 ^ 53)
    (h : place m = place n) : m = n := by
  have hround := ofInt_eq_iff.mpr h
  rw [ofInt, ofInt, signed.injEq, decide_eq_decide] at hround
  have habs := Rank.eq_of_ofRatio_eq hm hn (congrArg Fin.val hround.2)
  omega

end RecordFilter.Binary64
