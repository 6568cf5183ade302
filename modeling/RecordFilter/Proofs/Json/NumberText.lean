import Mathlib
import RecordFilter.Json.Number
import RecordFilter.Proofs.Decimal.ReadBack

/-!
# The text of a JSON number

The grammar of numbers in RFC 8259: a sign, digits without a zero in front of others, a point with
digits after it, and an exponent; all but the digits may be missing. A number is read off the front
of any text that does not go on with it, in a few steps that do not depend on what follows.

* `takeDigits_append`, `takeDigits_of_lt`: how far the digits are read, and when all of them are;
* `read?_text`: what is read of the text of a number;
* `number?_eq`: what that is when no digit is dropped.
-/

namespace RecordFilter.Json

open Numeral Binary64

/-! ## The grammar -/

/-- An exponent after its mark: an optional sign and digits. -/
structure Exponent where
  mark : Char
  sign : List Char
  digits : List Char
  isMark : mark = 'e' ∨ mark = 'E'
  isSign : sign = [] ∨ sign = ['+'] ∨ sign = ['-']
  nonempty : digits ≠ []
  allDigits : AllDigits digits

namespace Exponent

/-- The exponent as it is written. -/
def text (e : Exponent) : List Char := e.mark :: (e.sign ++ e.digits)

/-- The number that the exponent spells. -/
def value (e : Exponent) : Int := signed (e.sign = ['-']) (ofDigits e.digits)

end Exponent

/-- A number as JSON spells it. -/
structure NumberText where
  negative : Bool
  /-- The digits before the point. -/
  whole : List Char
  /-- The digits after the point; without any there is no point. -/
  fraction : List Char
  exponent : Option Exponent
  nonempty : whole ≠ []
  wholeDigits : AllDigits whole
  fractionDigits : AllDigits fraction
  /-- No digit follows a leading zero. -/
  noLeadingZero : whole.head? = some '0' → whole = ['0']

namespace NumberText

variable (t : NumberText)

/-- The point and the digits after it. -/
def fractionText : List Char := if t.fraction = [] then [] else '.' :: t.fraction

/-- The exponent as it is written, if there is one. -/
def exponentText : List Char := (t.exponent.map Exponent.text).getD []

/-- The text without its sign. -/
def unsignedText : List Char := t.whole ++ (t.fractionText ++ t.exponentText)

/-- The number as it is written. -/
def text : List Char := if t.negative then '-' :: t.unsignedText else t.unsignedText

/-- The exponent, which is zero when none is written. -/
def exponentValue : Int := (t.exponent.map Exponent.value).getD 0

/-- The magnitude that the text spells. -/
def decimal : Decimal := ⟨ofDigits (t.whole ++ t.fraction), t.exponentValue - t.fraction.length⟩

/-- The number of the format nearest to what the text spells. -/
def nearest : Binary64 := t.decimal.toBinary64 t.negative

/-- Neither a point nor an exponent is written. -/
def IsInteger : Prop := t.fraction = [] ∧ t.exponent = none

instance : Decidable t.IsInteger := by
  unfold IsInteger
  cases t.exponent <;> infer_instance

end NumberText

/-! ## Digits -/

namespace Number

theorem takeDigits_of_endsDigits {rest : List Char} (h : EndsDigits rest) (s n : Nat) :
    takeDigits s n rest = ⟨s, n, rest⟩ := by
  cases rest with
  | nil => rfl
  | cons c cs => simp [takeDigits, h c rfl]

/-- What follows the digits makes no difference to how far they are read. -/
theorem takeDigits_append {ds rest : List Char} (hds : AllDigits ds) (hrest : EndsDigits rest) :
    ∀ s n, takeDigits s n (ds ++ rest) =
      ⟨(takeDigits s n ds).significand, (takeDigits s n ds).count,
        (takeDigits s n ds).rest ++ rest⟩ := by
  induction ds with
  | nil => exact takeDigits_of_endsDigits hrest
  | cons d ds ih =>
    intro s n
    rw [List.cons_append, takeDigits, takeDigits]
    split
    · exact ih (fun c hc => hds c (List.mem_cons_of_mem d hc)) _ _
    · rfl

theorem allDigits_takeDigits {ds : List Char} (hds : AllDigits ds) :
    ∀ s n, AllDigits (takeDigits s n ds).rest := by
  induction ds with
  | nil => exact fun _ _ => hds
  | cons d ds ih =>
    intro s n
    rw [takeDigits]
    split
    · exact ih (fun c hc => hds c (List.mem_cons_of_mem d hc)) _ _
    · exact hds

theorem takeDigits_of_lt {ds : List Char} (hds : AllDigits ds) :
    ∀ s n, 10 ^ ds.length * s + ofDigits ds < UInt64.size →
      takeDigits s n ds = ⟨10 ^ ds.length * s + ofDigits ds, n + ds.length, []⟩ := by
  induction ds with
  | nil => simp [takeDigits, ofDigits]
  | cons d ds ih =>
    intro s n h
    have hvalue : 10 ^ (d :: ds).length * s + ofDigits (d :: ds) =
        10 ^ ds.length * (10 * s + ofDigits [d]) + ofDigits ds := by
      rw [← List.singleton_append, ofDigits_append, List.length_append, List.length_singleton,
        Nat.add_comm 1, Nat.pow_succ]
      ring
    have hle : 10 * s + ofDigits [d] ≤ 10 ^ ds.length * (10 * s + ofDigits [d]) :=
      Nat.le_mul_of_pos_left _ (Nat.pow_pos (by decide))
    rw [hvalue] at h ⊢
    have hfits : 10 * s + (d.toNat - '0'.toNat) < UInt64.size := by
      have hd : ofDigits [d] = d.toNat - '0'.toNat := Nat.zero_add _
      omega
    rw [takeDigits]
    rw [hds d List.mem_cons_self, if_pos (by simpa using hfits)]
    rw [ih (fun c hc => hds c (List.mem_cons_of_mem d hc)) _ _ (by simpa [ofDigits] using h)]
    simp [ofDigits, Nat.add_assoc, Nat.add_comm 1]

end Number

/-! ## The parts of the text -/

/-- No number goes on with the text. -/
def EndsNumber (text : List Char) : Prop :=
  ∀ c, text.head? = some c → c.isDigit = false ∧ c ≠ '.' ∧ c ≠ 'e' ∧ c ≠ 'E'

theorem EndsNumber.endsDigits {text : List Char} (h : EndsNumber text) : EndsDigits text :=
  fun c hc => (h c hc).1

theorem Exponent.splitSign_append (e : Exponent) (rest : List Char) :
    splitSign (e.sign ++ (e.digits ++ rest)) = (decide (e.sign = ['-']), e.digits ++ rest) := by
  rcases e.isSign with h | h | h
  · rw [h]
    exact splitSign_digit (beginsDigit_append e.nonempty e.allDigits rest)
  · rw [h]
    rfl
  · rw [h]
    rfl

namespace NumberText

variable (t : NumberText)

theorem endsDigits_exponentText {rest : List Char} (h : EndsDigits rest) :
    EndsDigits (t.exponentText ++ rest) := by
  rw [exponentText]
  cases t.exponent with
  | none => exact h
  | some e =>
    rintro c ⟨⟩
    rcases e.isMark with hmark | hmark
    · rw [hmark]
      rfl
    · rw [hmark]
      rfl

theorem head?_exponentText {rest : List Char} (h : EndsNumber rest) :
    (t.exponentText ++ rest).head? ≠ some '.' := by
  rw [exponentText]
  cases t.exponent with
  | none => exact fun hpoint => (h '.' hpoint).2.1 rfl
  | some e =>
    intro hpoint
    have hmark := e.isMark
    rw [show e.mark = '.' from Option.some.inj hpoint] at hmark
    revert hmark
    decide

theorem endsDigits_fractionText {rest : List Char} (h : EndsDigits rest) :
    EndsDigits (t.fractionText ++ (t.exponentText ++ rest)) := by
  rw [fractionText]
  split
  · exact t.endsDigits_exponentText h
  · rintro c ⟨⟩
    rfl

/-- What follows the whole digits shows whether an integer is written. -/
theorem integer_or_begins (rest : List Char) :
    (t.IsInteger ∧ t.fractionText ++ (t.exponentText ++ rest) = rest) ∨
      (¬ t.IsInteger ∧ ∃ c cs, (c = '.' ∨ c = 'e' ∨ c = 'E') ∧
        t.fractionText ++ (t.exponentText ++ rest) = c :: cs) := by
  rw [IsInteger, fractionText, exponentText]
  by_cases hfraction : t.fraction = []
  · cases he : t.exponent with
    | none =>
      left
      simp [hfraction]
    | some e =>
      right
      refine ⟨by simp, e.mark, e.sign ++ (e.digits ++ rest), Or.inr e.isMark, ?_⟩
      simp [hfraction, Exponent.text]
  · right
    exact ⟨fun h => hfraction h.1, '.', _, Or.inl rfl, by rw [if_neg hfraction]; rfl⟩

end NumberText

/-! ## Reading -/

namespace Number

variable {rest : List Char} (t : NumberText) (negative : Bool)

theorem withExponent_text (hrest : EndsNumber rest) (s : Nat) (x : Int) :
    withExponent negative s x (t.exponentText ++ rest) =
      (ofParts negative s (x + t.exponentValue)).map fun n => (n, rest) := by
  rw [NumberText.exponentText, NumberText.exponentValue]
  cases t.exponent with
  | none =>
    rw [show ((none : Option Exponent).map Exponent.text).getD [] ++ rest = rest from rfl]
    unfold withExponent
    split
    · exact absurd rfl (hrest 'e' rfl).2.2.1
    · exact absurd rfl (hrest 'E' rfl).2.2.2
    · simp
  | some e =>
    have hexplicit : withExponent negative s x (e.text ++ rest) =
        withExponent.explicit negative s x (e.sign ++ (e.digits ++ rest)) := by
      rw [Exponent.text, List.cons_append, List.append_assoc]
      rcases e.isMark with hmark | hmark
      · rw [hmark, withExponent]
      · rw [hmark, withExponent]
    rw [show ((some e).map Exponent.text).getD [] = e.text from rfl, hexplicit,
      withExponent.explicit, e.splitSign_append]
    dsimp only
    rw [digits_append e.allDigits hrest.endsDigits, afterDigits_append e.allDigits hrest.endsDigits,
      if_neg (by simpa using e.nonempty)]
    congr 2
    show _ = x + e.value
    rw [Exponent.value, Numeral.signed]
    split <;> omega

theorem afterInteger_text (hrest : EndsNumber rest) (s n : Nat) :
    afterInteger negative s n (t.fractionText ++ (t.exponentText ++ rest)) =
      (ofParts negative (takeDigits s 0 t.fraction).significand
        (n - (takeDigits s 0 t.fraction).count + t.exponentValue)).map fun m => (m, rest) := by
  have hexponent := t.endsDigits_exponentText hrest.endsDigits
  rw [NumberText.fractionText]
  by_cases hfraction : t.fraction = []
  · rw [if_pos hfraction, hfraction, List.nil_append, afterInteger]
    · rw [withExponent_text t negative hrest]
      simp [takeDigits]
    · exact fun cs hcs => t.head?_exponentText hrest (congrArg List.head? hcs)
  · have hdigits := t.fractionDigits
    rw [if_neg hfraction, List.cons_append, afterInteger, digits_append hdigits hexponent,
      if_neg (by simpa using hfraction), takeDigits_append hdigits hexponent]
    dsimp only
    rw [afterDigits_append (allDigits_takeDigits hdigits _ _) hexponent,
      withExponent_text t negative hrest]

end Number

/-- The number that is read: an integer whose digits fit into 64 bits as it is, and any other number
in steps from the digits that fit. -/
def NumberText.number? (t : NumberText) : Option Number :=
  let whole := Number.takeDigits 0 0 t.whole
  let taken := Number.takeDigits whole.significand 0 t.fraction
  if t.IsInteger ∧ whole.rest = [] then some (Number.ofInteger t.negative whole.significand)
  else
    Number.ofParts t.negative taken.significand
      (whole.rest.length - taken.count + t.exponentValue)

namespace Number

variable {rest : List Char}

theorem unsigned?_text (t : NumberText) (hrest : EndsNumber rest) :
    unsigned? t.negative (t.unsignedText ++ rest) = t.number?.map fun n => (n, rest) := by
  have hwhole := t.wholeDigits
  have htail := t.endsDigits_fractionText hrest.endsDigits
  have hleft := allDigits_takeDigits hwhole 0 0
  rw [NumberText.unsignedText, List.append_assoc, List.append_assoc, unsigned?,
    digits_append hwhole htail]
  split
  · next h => exact absurd h t.nonempty
  · next h =>
    have hzero := t.noLeadingZero (by rw [h]; rfl)
    rw [h] at hzero
    cases hzero
  rw [takeDigits_append hwhole htail, NumberText.number?]
  dsimp only
  rw [digits_append hleft htail]
  have hafter := afterInteger_text t t.negative hrest
  cases hdropped : (takeDigits 0 0 t.whole).rest with
  | nil =>
    rw [List.nil_append]
    rcases t.integer_or_begins rest with ⟨hinteger, heq⟩ | ⟨hinteger, c, cs, hc, heq⟩
    · rw [heq, if_pos ⟨hinteger, rfl⟩, Option.map_some]
      split
      · exact absurd rfl (hrest '.' rfl).2.1
      · exact absurd rfl (hrest 'e' rfl).2.2.1
      · exact absurd rfl (hrest 'E' rfl).2.2.2
      · rfl
      · next h _ _ _ => exact (h rfl).elim
    · have := hafter (takeDigits 0 0 t.whole).significand 0
      rw [heq] at this ⊢
      rw [if_neg fun h => hinteger h.1]
      rcases hc with rfl | rfl | rfl <;> exact this
  | cons d ds =>
    show afterInteger t.negative _ (d :: ds).length
      (afterDigits (d :: ds ++ (t.fractionText ++ (t.exponentText ++ rest)))) = _
    rw [if_neg fun h => List.cons_ne_nil d ds h.2, afterDigits_append (hdropped ▸ hleft) htail]
    exact hafter _ _

/-- **What is read of the text of a number.** -/
theorem read?_text (t : NumberText) (hrest : EndsNumber rest) :
    read? (t.text ++ rest) = t.number?.map fun n => (n, rest) := by
  have hunsigned := unsigned?_text t hrest
  rw [NumberText.text]
  cases hsign : t.negative with
  | true =>
    rw [hsign] at hunsigned
    exact hunsigned
  | false =>
    rw [hsign] at hunsigned
    rw [← hunsigned]
    obtain ⟨c, cs, heq, hc⟩ := beginsDigit_append t.nonempty t.wholeDigits
      (t.fractionText ++ t.exponentText ++ rest)
    have htext : t.unsignedText ++ rest = c :: cs := by
      rw [← heq, NumberText.unsignedText, List.append_assoc]
    simp only [Bool.false_eq_true, if_false]
    rw [htext]
    unfold read?
    split
    · next h =>
      cases h
      cases hc
    · rfl

end Number

/-- When the digits fit into 64 bits none of them is dropped. -/
theorem NumberText.number?_eq (t : NumberText) (h : t.decimal.significand < UInt64.size) :
    t.number? = if t.IsInteger then some (Number.ofInteger t.negative t.decimal.significand)
      else Number.ofParts t.negative t.decimal.significand t.decimal.exponent := by
  have hvalue : t.decimal.significand =
      10 ^ t.fraction.length * ofDigits t.whole + ofDigits t.fraction := ofDigits_append _ _
  have hle : ofDigits t.whole ≤ 10 ^ t.fraction.length * ofDigits t.whole :=
    Nat.le_mul_of_pos_left _ (Nat.pow_pos (by decide))
  rw [hvalue] at h ⊢
  have hwhole := Number.takeDigits_of_lt t.wholeDigits 0 0 (by omega)
  rw [Nat.mul_zero, Nat.zero_add] at hwhole
  rw [number?, hwhole]
  dsimp only
  rw [Number.takeDigits_of_lt t.fractionDigits _ _ h]
  by_cases hinteger : t.IsInteger
  · rw [if_pos ⟨hinteger, rfl⟩, if_pos hinteger, hinteger.1]
    simp [ofDigits]
  · rw [if_neg fun h => hinteger h.1, if_neg hinteger]
    congr 1
    simp [decimal]
    omega

end RecordFilter.Json
