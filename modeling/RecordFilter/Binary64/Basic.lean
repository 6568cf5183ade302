/-!
# Binary floating-point numbers of 64 bits

The numbers of the binary64 format, infinities and "not a number" included, as data. The
magnitudes of the format are numbered in increasing order by their **rank**: rank 0 is zero, rank 1
the least positive number `2 ^ -1074`, and the last rank is infinity. The rank is also the bit
pattern without its sign, so a number is a sign and a rank.

Measured in units of `2 ^ -1074` every finite magnitude is a natural number (`Rank.units`): each
rank below `2 ^ 53` is its own number of units, and the distance to the next doubles with every
further block of `2 ^ 52` ranks.

* `compare_self`: a number is equal to itself unless it is "not a number".
-/

namespace RecordFilter

namespace Binary64

/-- How many ranks there are before the distance between neighbours doubles, `2 ^ 52`. -/
def blockSize : Nat := 0x10000000000000

/-- The place of a magnitude among all magnitudes of the format: 2047 blocks and infinity. -/
abbrev Rank := Fin 0x7FF0000000000001

namespace Rank

/-- The rank of zero. -/
def zero : Rank := ⟨0, by decide⟩

/-- The rank of infinity. -/
def infinity : Rank := ⟨0x7FF0000000000000, by decide⟩

/-- The magnitude in units of `2 ^ -1074`; infinity counts as `2 ^ 1024`. -/
def units (r : Rank) : Nat :=
  if r.val < blockSize then r.val
  else (blockSize + r.val % blockSize) <<< (r.val / blockSize - 1)

/-- How many units make one. -/
def unitsPerOne : Nat := 1 <<< 1074

end Rank

end Binary64

/-- A binary64 number. Zero has both signs, and there is one "not a number". -/
inductive Binary64 where
  /-- No number: it is neither equal to, nor above or below, any number. -/
  | nan
  /-- The number of the given sign and magnitude. -/
  | signed (negative : Bool) (rank : Binary64.Rank)
  deriving DecidableEq, Inhabited

namespace Binary64

/-- Positive zero. -/
def zero : Binary64 := .signed false .zero

/-- Neither infinite nor "not a number". -/
def isFinite : Binary64 → Bool
  | .nan => false
  | .signed _ r => r != Rank.infinity

/-- The number of the opposite sign. -/
def neg : Binary64 → Binary64
  | .nan => .nan
  | .signed s r => .signed (!s) r

/-- The signed rank: it orders the numbers, and gives both zeros the same place. -/
def key (negative : Bool) (r : Rank) : Int :=
  if negative then -(r.val : Int) else r.val

/-- How two numbers compare; there is no answer when one is "not a number". -/
def compare : Binary64 → Binary64 → Option Ordering
  | .signed s r, .signed s' r' => some (Ord.compare (key s r) (key s' r'))
  | _, _ => none

theorem compare_self (x : Binary64) :
    x.compare x = if x = .nan then none else some .eq := by
  cases x <;> simp [compare]

end Binary64

end RecordFilter
