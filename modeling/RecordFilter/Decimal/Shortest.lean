import RecordFilter.Decimal.Basic

/-!
# The shortest decimal fraction of a magnitude

Among the decimal fractions that round to a given positive magnitude, those with the fewest digits
are the shortest, and the nearest of these is its text. For each number of digits in turn the two
neighbours of the magnitude on the grid of that many digits are rounded back: if any fraction on
the grid rounds to the magnitude, one of the two neighbours does. Of two hits the nearer is taken,
and the upper one when both are equally near.

* `rank_of_onGrid`: what the search finds on a grid rounds to the magnitude.
-/

namespace RecordFilter.Decimal

open Binary64

/-- The magnitude written out in full: the unit `2 ^ -1074` is `5 ^ 1074 * 10 ^ -1074`. -/
def inFull (r : Rank) : Decimal := ⟨r.units * Nat.pow 5 1074, -1074⟩

/-- The place of the leading digit: a positive magnitude is at least `10 ^ (place - 1)` and less
than `10 ^ place`. -/
def leadingPlace (r : Rank) : Int :=
  (Nat.toDigits 10 (r.units * powerOfTen 400 / Rank.unitsPerOne)).length - 400

/-- The magnitude as a fraction, measured in steps of `10 ^ exponent`. -/
def inSteps (r : Rank) (exponent : Int) : Nat × Nat :=
  if 0 ≤ exponent then (r.units, Rank.unitsPerOne * powerOfTen exponent.toNat)
  else (r.units * powerOfTen (-exponent).toNat, Rank.unitsPerOne)

/-- The better of the two neighbours on the grid of `10 ^ exponent` that round to the magnitude,
if there is one. -/
def onGrid (r : Rank) (exponent : Int) : Option Decimal :=
  let steps := inSteps r exponent
  let below : Decimal := ⟨steps.1 / steps.2, exponent⟩
  let above : Decimal := ⟨steps.1 / steps.2 + 1, exponent⟩
  let nearer := if 2 * (steps.1 % steps.2) < steps.2 then below else above
  [nearer, below, above].find? fun c => c.rank == r

/-- The nearest of the shortest decimal fractions that round to the magnitude. Seventeen digits
are always enough, so the full expansion is never reached by a positive finite magnitude. -/
def shortest (r : Rank) : Decimal :=
  let place := leadingPlace r
  ((List.range 17).findSome? fun i : Nat => onGrid r (place - (i + 1 : Nat))).getD (inFull r)

theorem rank_of_onGrid {r : Rank} {exponent : Int} {c : Decimal} (h : onGrid r exponent = some c) :
    c.rank = r := by
  have hc := List.find?_some h
  exact beq_iff_eq.mp hc

end RecordFilter.Decimal
