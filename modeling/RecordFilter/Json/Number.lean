import RecordFilter.Json.Basic
import RecordFilter.Decimal.Basic
import RecordFilter.Numeral

/-!
# JSON numbers

The value of a number with a fraction, an exponent or too many digits is computed in binary64
arithmetic, in at most a few rounded steps: the leading digits that fit into 64 bits are read as a
significand, which is rounded and then multiplied or divided by rounded powers of ten. The digits
after those only count towards the exponent, or not at all. So the value may differ in its last bit
from the number nearest to the text. A number too large for the format has no value, and one too
small is zero.

* `scale_zero`: zero stays zero whatever the exponent;
* `ofInteger_zero`: the integer `-0` is the negative zero of the format.
-/

namespace RecordFilter.Json.Number

open Binary64

/-- The digits taken off the front of a text. -/
structure Taken where
  significand : Nat
  /-- How many digits have been added to the significand. -/
  count : Nat
  rest : List Char

/-- Adds the digits that the text begins with to the significand while it fits into 64 bits. -/
def takeDigits (significand count : Nat) : List Char → Taken
  | [] => ⟨significand, count, []⟩
  | c :: rest =>
    let extended := 10 * significand + (c.toNat - '0'.toNat)
    if c.isDigit && extended < UInt64.size then takeDigits extended (count + 1) rest
    else ⟨significand, count, c :: rest⟩

/-- The number nearest to a power of ten. -/
def nearestPower (exponent : Nat) : Rank := Decimal.rank ⟨1, exponent⟩

/-- Divides by `10 ^ 308` the given number of times, or until nothing is left. -/
def shrink : Nat → Rank → Rank
  | 0, r => r
  | steps + 1, r => if r = .zero then .zero else shrink steps (r.div (nearestPower 308))

/-- Divides by `10 ^ exponent`, in steps of `10 ^ 308` and a last one that is not larger. -/
def scaleDown (r : Rank) (exponent : Nat) : Rank :=
  let steps := (exponent - 1) / 308
  (shrink steps r).div (nearestPower (exponent - 308 * steps))

/-- Multiplies by `10 ^ exponent`; there is no value when the product is too large. -/
def scale (r : Rank) (exponent : Int) : Option Rank :=
  if exponent < 0 then some (scaleDown r (-exponent).toNat)
  else if r = .zero then some .zero
  else if 308 < exponent then none
  else
    let product := r.mul (nearestPower exponent.toNat)
    if product = Rank.infinity then none else some product

theorem scale_zero (exponent : Int) (h : 0 ≤ exponent) : scale .zero exponent = some .zero := by
  unfold scale
  rw [if_neg (by omega), if_pos rfl]

/-- The number written as an integer of less than `2 ^ 64`: it is one of 64 bits if it fits, and
`-0` does not. -/
def ofInteger (negative : Bool) (n : Nat) : Number :=
  if negative then
    if n = 0 then .real (.signed true .zero)
    else match Numeral.toInt64? (-n) with
      | some i => .integer i
      | none => .real (.signed true (.ofRatio n 1))
  else
    match Numeral.toInt64? n with
    | some i => .integer i
    | none => .natural (UInt64.ofNat n)

theorem ofInteger_zero : ofInteger true 0 = .real (.signed true .zero) := by decide +kernel

/-- The number `significand * 10 ^ exponent`, unless it is too large. -/
def ofParts (negative : Bool) (significand : Nat) (exponent : Int) : Option Number :=
  (scale (.ofRatio significand 1) exponent).map fun r => .real (.signed negative r)

/-- Reads what may follow the digits, an exponent, and puts the number together. -/
def withExponent (negative : Bool) (significand : Nat) (exponent : Int) (text : List Char) :
    Option (Number × List Char) :=
  match text with
  | 'e' :: rest => explicit rest
  | 'E' :: rest => explicit rest
  | rest => (ofParts negative significand exponent).map fun n => (n, rest)
where
  /-- The exponent after its letter: an optional sign and at least one digit. -/
  explicit (text : List Char) : Option (Number × List Char) :=
    let (minus, body) := Numeral.splitSign text
    if (Numeral.digits body).isEmpty then none
    else
      let e : Int := Numeral.ofDigits (Numeral.digits body)
      (ofParts negative significand (if minus then exponent - e else exponent + e)).map fun n =>
        (n, Numeral.afterDigits body)

/-- Reads what may follow the digits of the integer part, of which the significand holds all but
the last `exponent`: a fraction, an exponent, or neither. -/
def afterInteger (negative : Bool) (significand exponent : Nat) (text : List Char) :
    Option (Number × List Char) :=
  match text with
  | '.' :: rest =>
    if (Numeral.digits rest).isEmpty then none
    else
      let taken := takeDigits significand 0 rest
      withExponent negative taken.significand ((exponent : Int) - taken.count)
        (Numeral.afterDigits taken.rest)
  | rest => withExponent negative significand exponent rest

/-- Reads a number without its sign. No digit may follow a leading zero. -/
def unsigned? (negative : Bool) (text : List Char) : Option (Number × List Char) :=
  match Numeral.digits text with
  | [] => none
  | '0' :: _ :: _ => none
  | _ =>
    let taken := takeDigits 0 0 text
    let dropped := (Numeral.digits taken.rest).length
    match dropped, taken.rest with
    | 0, '.' :: _ => afterInteger negative taken.significand 0 taken.rest
    | 0, 'e' :: _ => afterInteger negative taken.significand 0 taken.rest
    | 0, 'E' :: _ => afterInteger negative taken.significand 0 taken.rest
    | 0, rest => some (ofInteger negative taken.significand, rest)
    | dropped, rest =>
      afterInteger negative taken.significand dropped (Numeral.afterDigits rest)

/-- Reads a number off the front of the text. -/
def read? : List Char → Option (Number × List Char)
  | '-' :: rest => unsigned? true rest
  | text => unsigned? false text

end RecordFilter.Json.Number
