import RecordFilter.Binary64.Basic

/-!
# Rounding to the nearest number

Every operation on binary64 numbers is the exact result, rounded once: to the nearest number of
the format, and to the one of even rank when two are equally near. An exact result is a fraction
`n / d` of units of `2 ^ -1074`. When it lies in the block whose numbers are `2 ^ k` units apart,
the nearest multiple of `2 ^ k` is found by a rounded division; the ranks of the block begin at
`k * 2 ^ 52` before the multiple is added, so that a multiple that rounds up to the next block
gets the right rank of its own accord.

* `nearestEven_mul`: a multiple of the divisor is divided exactly;
* `nearest_zero`: nothing rounds to zero.
-/

namespace RecordFilter.Binary64

/-- The quotient rounded to the nearest natural number, a half to the even neighbour. -/
def nearestEven (n d : Nat) : Nat :=
  let q := n / d
  let r := n % d
  if 2 * r < d ∨ (2 * r = d ∧ q % 2 = 0) then q else q + 1

theorem nearestEven_mul (q : Nat) {d : Nat} (h : 0 < d) : nearestEven (q * d) d = q := by
  unfold nearestEven
  rw [Nat.mul_div_cancel _ h, Nat.mul_mod_left]
  exact if_pos (Or.inl (by omega))

theorem nearestEven_zero (d : Nat) : nearestEven 0 d = 0 := by
  unfold nearestEven
  rw [Nat.zero_div, Nat.zero_mod]
  exact if_pos (by omega)

namespace Rank

/-- How many times the gap between neighbours has doubled at `n / d` units. -/
def blockOf (n d : Nat) : Nat := Nat.log2 (n / d) - 52

/-- The magnitude nearest to `n / d` units. -/
def nearest (n d : Nat) : Rank :=
  let k := blockOf n d
  ⟨min (k * blockSize + nearestEven n (d <<< k)) infinity.val,
    Nat.lt_succ_of_le (Nat.min_le_right _ _)⟩

theorem nearest_zero (d : Nat) : nearest 0 d = zero := by
  have h : blockOf 0 d = 0 := by simp [blockOf]
  apply Fin.ext
  simp only [nearest, h]
  simp [nearestEven_zero, zero]

/-- The product of two finite magnitudes. -/
def mul (a b : Rank) : Rank := nearest (a.units * b.units) unitsPerOne

/-- The quotient of two finite magnitudes, the second of them positive. -/
def div (a b : Rank) : Rank := nearest (a.units * unitsPerOne) b.units

/-- The magnitude nearest to the fraction `n / d`. -/
def ofRatio (n d : Nat) : Rank := nearest (n * unitsPerOne) d

end Rank

/-- The number nearest to an integer. -/
def ofInt (n : Int) : Binary64 := .signed (n < 0) (Rank.ofRatio n.natAbs 1)

end RecordFilter.Binary64
