import RecordFilter.Decimal.Shortest
import RecordFilter.Numeral

/-!
# Writing binary64 numbers

A number is written with the digits of its shortest decimal fraction. A layout decides the rest:
which decimal exponents are written out in positional notation, and whether a whole number shows
that it is not an integer. Negative zero keeps its sign; infinities and "not a number" have names.

* `literal`: the layout of the literals of an expression: positional from `10 ^ -4` up to but not
  including `10 ^ 16`, with at least one digit after the point; otherwise a mantissa and an
  exponent;
* `plain`: always positional, and a whole number is written like an integer.
-/

namespace RecordFilter

namespace Decimal

/-- The decisions of a format for numbers. -/
structure Layout where
  /-- The decimal exponents, those of the leading digit, that are written out. -/
  isPositional : Int → Bool
  /-- What follows a whole number in positional notation. -/
  afterWhole : String

namespace Layout

/-- The layout that reads back as a number with a fraction. -/
def literal : Layout := ⟨fun e => -4 ≤ e && e < 16, ".0"⟩

/-- The layout without exponents. -/
def plain : Layout := ⟨fun _ => true, ""⟩

end Layout

/-- The significant digits without zeros at the end. -/
def significantDigits (d : Decimal) : List Char :=
  ((Nat.toDigits 10 d.significand).reverse.dropWhile (· == '0')).reverse

/-- The decimal exponent of the leading digit. -/
def leadingExponent (d : Decimal) : Int :=
  (Nat.toDigits 10 d.significand).length - 1 + d.exponent

/-- Positional notation of the digits, the first of which counts `10 ^ exponent`. -/
def positional (afterWhole : String) (digits : List Char) (exponent : Int) : List Char :=
  if exponent < 0 then
    ['0', '.'] ++ List.replicate (-exponent - 1).toNat '0' ++ digits
  else
    let places := exponent.toNat + 1
    if digits.length ≤ places then
      digits ++ List.replicate (places - digits.length) '0' ++ afterWhole.toList
    else digits.take places ++ ['.'] ++ digits.drop places

/-- Mantissa and exponent: a point follows the first digit unless it is the only one. -/
def scientific (digits : List Char) (exponent : Int) : List Char :=
  digits.take 1 ++ (if digits.length ≤ 1 then [] else '.' :: digits.drop 1) ++
    'e' :: Numeral.ofInt exponent

/-- A decimal fraction other than zero in the layout. -/
def layOut (layout : Layout) (d : Decimal) : List Char :=
  let digits := d.significantDigits
  let exponent := d.leadingExponent
  if layout.isPositional exponent then positional layout.afterWhole digits exponent
  else scientific digits exponent

end Decimal

namespace Binary64

/-- The magnitude in the layout. -/
def Rank.text (layout : Decimal.Layout) (r : Rank) : List Char :=
  if r = Rank.infinity then "inf".toList
  else if r = .zero then '0' :: layout.afterWhole.toList
  else (Decimal.shortest r).layOut layout

/-- The number in the layout. -/
def text (layout : Decimal.Layout) : Binary64 → String
  | .nan => "NaN"
  | .signed negative r =>
    String.ofList (if negative then '-' :: r.text layout else r.text layout)

end Binary64

end RecordFilter
