/-!
# Sets of characters as ranges

A property of characters is written as the list of the ranges of code points that have it, both
ends included, in increasing order.
-/

namespace RecordFilter.Text

/-- The ranges hold the code point. -/
def covers (ranges : List (Nat × Nat)) (codePoint : Nat) : Bool :=
  ranges.any fun range => range.1 ≤ codePoint && codePoint ≤ range.2

end RecordFilter.Text
