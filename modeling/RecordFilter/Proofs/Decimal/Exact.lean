import Mathlib
import RecordFilter.Decimal.Shortest
import RecordFilter.Proofs.Binary64.Nearest

/-!
# The magnitude of a decimal fraction

The answers for exponents far beyond the range are the right ones, so the magnitude of a decimal
fraction is always the one nearest to its exact value. It does not matter how many zeros the digits
end with, and the shortest fraction of a magnitude is a fraction of that magnitude.

* `rank_eq_exactRank`: the shortcuts change nothing;
* `rank_zeros`: zeros at the end of the digits count as much as the exponent;
* `rank_shortest`: the shortest fraction of a magnitude rounds to it.
-/

namespace RecordFilter.Decimal

open Binary64

theorem powerOfTen_eq (n : Nat) : powerOfTen n = 10 ^ n := rfl

/-! ## Shortcuts -/

theorem two_pow_le_ten_pow (k : Nat) : 2 ^ (3 * k) ≤ 10 ^ k := by
  rw [Nat.pow_mul]
  exact Nat.pow_le_pow_left (by decide) k

theorem lt_ten_pow_digitBound (n : Nat) : n < 10 ^ digitBound n :=
  calc n < 2 ^ (n.log2 + 1) := Nat.lt_log2_self
    _ ≤ 2 ^ (3 * digitBound n) := Nat.pow_le_pow_right (by decide) (by rw [digitBound]; omega)
    _ ≤ 10 ^ digitBound n := two_pow_le_ten_pow _

theorem exactRank_of_large {m : Nat} (hm : m ≠ 0) {e : Int} (he : 400 < e) :
    exactRank ⟨m, e⟩ = .infinity := by
  rw [exactRank, if_pos (by dsimp only; omega)]
  refine Rank.nearest_of_large ?_
  rw [Nat.div_one, Rank.unitsPerOne_eq, powerOfTen_eq]
  dsimp only
  calc 2 ^ 2099 ≤ 2 ^ (3 * e.toNat + 1074) := Nat.pow_le_pow_right (by decide) (by omega)
    _ = 2 ^ (3 * e.toNat) * 2 ^ 1074 := pow_add 2 _ _
    _ ≤ 10 ^ e.toNat * 2 ^ 1074 := Nat.mul_le_mul_right _ (two_pow_le_ten_pow _)
    _ ≤ m * 10 ^ e.toNat * 2 ^ 1074 :=
      Nat.mul_le_mul_right _ (Nat.le_mul_of_pos_left _ (Nat.pos_of_ne_zero hm))

theorem exactRank_of_small {m : Nat} {e : Int} (he : e + digitBound m < -400) :
    exactRank ⟨m, e⟩ = .zero := by
  rw [exactRank, if_neg (by dsimp only; omega)]
  refine Rank.nearest_of_small ?_
  rw [Rank.unitsPerOne_eq, powerOfTen_eq]
  dsimp only
  obtain ⟨k, hk⟩ : ∃ k, (-e).toNat = digitBound m + k ∧ 400 < k :=
    ⟨(-e).toNat - digitBound m, by omega, by omega⟩
  have hunits : ∀ n, n < 3 * k → 2 * 2 ^ n ≤ 10 ^ k := fun n hn => by
    rw [← Nat.pow_succ']
    exact Nat.le_trans (Nat.pow_le_pow_right (by decide) hn) (two_pow_le_ten_pow k)
  calc 2 * (m * 2 ^ 1074) = m * (2 * 2 ^ 1074) := Nat.mul_left_comm _ _ _
    _ ≤ m * 10 ^ k := Nat.mul_le_mul_left _ (hunits 1074 (by omega))
    _ < 10 ^ digitBound m * 10 ^ k :=
      Nat.mul_lt_mul_of_pos_right (lt_ten_pow_digitBound m) (Nat.pow_pos (by decide))
    _ = 10 ^ (-e).toNat := by rw [hk.1, Nat.pow_add]

theorem exactRank_zero (e : Int) : exactRank ⟨0, e⟩ = .zero := by
  rw [exactRank, Nat.zero_mul, Rank.ofRatio_zero, Rank.ofRatio_zero, ite_self]

/-- The magnitude of a fraction is the one nearest to its exact value. -/
theorem rank_eq_exactRank (d : Decimal) : d.rank = d.exactRank := by
  obtain ⟨m, e⟩ := d
  unfold rank
  split
  · next hm =>
    cases (show m = 0 from hm)
    exact (exactRank_zero e).symm
  · next hm =>
    split
    · next he => exact (exactRank_of_large hm he).symm
    · split
      · next he => exact (exactRank_of_small he).symm
      · rfl

/-! ## Zeros at the end -/

theorem exactRank_zeros (m k : Nat) (e : Int) :
    exactRank ⟨m * 10 ^ k, e⟩ = exactRank ⟨m, e + k⟩ := by
  have hpos : ∀ n : Nat, 0 < 10 ^ n := fun n => Nat.pow_pos (by decide)
  simp only [exactRank, powerOfTen_eq]
  by_cases he : 0 ≤ e
  · rw [if_pos he, if_pos (by omega), Nat.mul_assoc, ← Nat.pow_add,
      show k + e.toNat = (e + k).toNat by omega]
  · rw [if_neg he]
    by_cases hek : 0 ≤ e + k
    · rw [if_pos hek, show k = (e + k).toNat + (-e).toNat by omega, Nat.pow_add, ← Nat.mul_assoc,
        ← Rank.ofRatio_mul_right _ 1 (hpos (-e).toNat), Nat.one_mul]
      congr 5
      omega
    · rw [if_neg hek, show (-e).toNat = (-(e + k)).toNat + k by omega, Nat.pow_add,
        Rank.ofRatio_mul_right _ _ (hpos k)]

theorem rank_zeros (m k : Nat) (e : Int) : rank ⟨m * 10 ^ k, e⟩ = rank ⟨m, e + k⟩ := by
  rw [rank_eq_exactRank, rank_eq_exactRank, exactRank_zeros]

/-! ## The shortest fraction -/

/-- A magnitude is exact when its unit, a power of one half, is written out. -/
theorem exactRank_units {n : Nat} (hn : 0 < n) (hunits : Rank.unitsPerOne = 2 ^ n) (r : Rank) :
    exactRank ⟨r.units * Nat.pow 5 n, -n⟩ = r := by
  have hten : r.units * Nat.pow 5 n * 2 ^ n = r.units * 10 ^ n := by
    rw [Nat.mul_assoc]
    exact congrArg (r.units * ·) (Nat.mul_pow 5 2 n).symm
  rw [exactRank, if_neg (by dsimp only; omega), Rank.ofRatio, hunits, powerOfTen_eq]
  dsimp only
  rw [hten, Int.neg_neg, Int.toNat_natCast]
  calc Rank.nearest (r.units * 10 ^ n) (10 ^ n)
      = Rank.nearest (r.units * 10 ^ n) (1 * 10 ^ n) := by rw [Nat.one_mul]
    _ = Rank.nearest r.units 1 := Rank.nearest_mul_right _ _ (Nat.pow_pos (by decide))
    _ = r := Rank.nearest_units r

theorem rank_inFull (r : Rank) : (inFull r).rank = r := by
  have hn : 0 < 1074 := by decide
  have hexact : exactRank ⟨r.units * Nat.pow 5 1074, -(1074 : Nat)⟩ = r :=
    exactRank_units hn Rank.unitsPerOne_eq r
  exact (rank_eq_exactRank _).trans hexact

/-- What is found, or else the magnitude written out, rounds to it. -/
theorem rank_getD {found : Option Decimal} {r : Rank} (h : ∀ c, found = some c → c.rank = r) :
    (found.getD (inFull r)).rank = r := by
  -- Stated for any option, so that the power of five in `inFull` is never computed.
  cases found with
  | none => exact rank_inFull r
  | some c => exact h c rfl

/-- **The shortest fraction of a magnitude rounds to it.** -/
theorem rank_shortest (r : Rank) : (shortest r).rank = r := by
  rw [shortest]
  refine rank_getD fun c hc => ?_
  obtain ⟨i, -, hi⟩ := List.exists_of_findSome?_eq_some hc
  exact rank_of_onGrid hi

theorem shortest_ne_zero {r : Rank} (hr : r ≠ .zero) : (shortest r).significand ≠ 0 := by
  intro hzero
  have hrank : (shortest r).rank = .zero := if_pos hzero
  exact hr ((rank_shortest r).symm.trans hrank)

end RecordFilter.Decimal
