import RecordFilter.Binary64.Rounding

/-!
# Decimal fractions

A natural number with a decimal exponent, and the binary64 magnitude nearest to it. Exponents far
beyond the range of the format are answered without computing the power of ten: from `10 ^ 400` on
everything is infinite, and below `10 ^ -400` everything is zero.

* `rank_zero`: zero is zero whatever its exponent.
-/

namespace RecordFilter

/-- The number `significand * 10 ^ exponent`. -/
structure Decimal where
  /-- The digits, read as a natural number. -/
  significand : Nat
  /-- The power of ten that they are multiplied by. -/
  exponent : Int
  deriving DecidableEq

namespace Decimal

/-- A power of ten. -/
def powerOfTen (exponent : Nat) : Nat := Nat.pow 10 exponent

/-- The magnitude nearest to the decimal fraction, with the power of ten written out. -/
def exactRank (d : Decimal) : Binary64.Rank :=
  if 0 ≤ d.exponent then .ofRatio (d.significand * powerOfTen d.exponent.toNat) 1
  else .ofRatio d.significand (powerOfTen (-d.exponent).toNat)

/-- An upper bound of the count of digits: a power of ten with this exponent is larger. -/
def digitBound (n : Nat) : Nat := n.log2 / 3 + 1

/-- The magnitude nearest to the decimal fraction. -/
def rank (d : Decimal) : Binary64.Rank :=
  if d.significand = 0 then .zero
  else if 400 < d.exponent then .infinity
  else if d.exponent + digitBound d.significand < -400 then .zero
  else d.exactRank

theorem rank_zero (e : Int) : rank ⟨0, e⟩ = .zero := by simp [rank]

/-- The number of the given sign nearest to the decimal fraction. -/
def toBinary64 (negative : Bool) (d : Decimal) : Binary64 := .signed negative d.rank

end Decimal

end RecordFilter
