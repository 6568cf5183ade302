import RecordFilter.Decimal.Basic

/-!
# Numerals

How numbers are spelled in text. An **integer numeral** is an optional sign and one or more decimal
digits. A **decimal numeral** is an optional sign, digits with at most one point before, among or
after them, and an optional exponent: `e` or `E`, an optional sign and digits. Digits are the ASCII
digits; leading zeros mean nothing.

* `splitSign_eq`: a sign is taken off or nothing is;
* `digits_split`: the digits a text begins with and the rest make up the text.
-/

namespace RecordFilter.Numeral

/-- The number that a list of digits spells. -/
def ofDigits (digits : List Char) : Nat :=
  digits.foldl (fun n c => 10 * n + (c.toNat - '0'.toNat)) 0

/-- Takes a sign off the text; `true` is minus. -/
def splitSign : List Char → Bool × List Char
  | '+' :: rest => (false, rest)
  | '-' :: rest => (true, rest)
  | text => (false, text)

/-- The digits that the text begins with. -/
def digits (text : List Char) : List Char := text.takeWhile Char.isDigit

/-- The text after the digits that it begins with. -/
def afterDigits (text : List Char) : List Char := text.dropWhile Char.isDigit

theorem splitSign_eq (text : List Char) :
    (splitSign text).2 = text ∨ ∃ c, (c = '+' ∨ c = '-') ∧ c :: (splitSign text).2 = text := by
  unfold splitSign
  split <;> simp

theorem digits_split (text : List Char) : digits text ++ afterDigits text = text :=
  List.takeWhile_append_dropWhile

/-! ## Natural numbers and integers -/

/-- The integer in decimal digits, after a minus sign if it is negative. -/
def ofInt (n : Int) : List Char :=
  if n < 0 then '-' :: Nat.toDigits 10 n.natAbs else Nat.toDigits 10 n.natAbs

/-- The natural number that the whole text spells in digits. -/
def natural? (text : List Char) : Option Nat :=
  if text.isEmpty || !text.all Char.isDigit then none else some (ofDigits text)

/-- The integer of the given sign and magnitude. -/
def signed (negative : Bool) (n : Nat) : Int := if negative then -(n : Int) else n

/-- The integer that the whole text spells. -/
def integer? (text : List Char) : Option Int :=
  let (negative, body) := splitSign text
  (natural? body).map (signed negative)

/-- The integer as one of 64 bits, when it fits. -/
def toInt64? (n : Int) : Option Int64 :=
  if -0x8000000000000000 ≤ n ∧ n < 0x8000000000000000 then some (Int64.ofInt n) else none

/-- The integer that the whole text spells, when it fits into 64 bits. -/
def integer64? (text : List Char) : Option Int64 := (integer? text).bind toInt64?

/-- The text without the plus sign it may begin with. -/
def dropPlus : List Char → List Char
  | '+' :: rest => rest
  | text => text

/-- The natural number that the whole text spells after an optional plus sign, when it fits into 64
bits. -/
def natural64? (text : List Char) : Option Nat :=
  (natural? (dropPlus text)).filter (· < UInt64.size)

theorem natural64?_lt {text : List Char} {n : Nat} (h : natural64? text = some n) :
    n < UInt64.size := by
  simpa using (Option.filter_eq_some_iff.mp h).2

/-! ## Decimal numerals -/

/-- The exponent that follows the digits of a decimal numeral: nothing, or `e` and an integer. -/
def exponent? : List Char → Option Int
  | [] => some 0
  | c :: rest => if c = 'e' || c = 'E' then integer? rest else none

/-- The digits after the point, and what follows them; without a point there are none. -/
def splitFraction : List Char → List Char × List Char
  | '.' :: rest => (digits rest, afterDigits rest)
  | text => ([], text)

/-- The decimal fraction that the whole text spells, without a sign. -/
def unsigned? (text : List Char) : Option Decimal :=
  let whole := digits text
  let (fraction, rest) := splitFraction (afterDigits text)
  if whole.isEmpty && fraction.isEmpty then none
  else (exponent? rest).map fun e => ⟨ofDigits (whole ++ fraction), e - fraction.length⟩

/-- The number nearest to the decimal numeral that the whole text spells. -/
def decimal? (text : List Char) : Option Binary64 :=
  let (negative, body) := splitSign text
  (unsigned? body).map (Decimal.toBinary64 negative)

/-! ## Names of the numbers that have no digits -/

/-- The number that the text names without digits: infinity or "not a number", in any case. -/
def named? (text : List Char) : Option Binary64 :=
  let (negative, body) := splitSign text
  let name := body.map Char.toLower
  if name = "inf".toList || name = "infinity".toList then some (.signed negative .infinity)
  else if name = "nan".toList then some .nan
  else none

/-- The number that the whole text spells in digits or names. -/
def binary64? (text : List Char) : Option Binary64 := (decimal? text).orElse fun _ => named? text

end RecordFilter.Numeral
