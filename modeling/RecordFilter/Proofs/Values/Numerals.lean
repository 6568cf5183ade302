import Mathlib
import RecordFilter.Proofs.Decimal.Overflow
import RecordFilter.Proofs.Lexing.Sequence
import RecordFilter.Proofs.Printing.Tokens

/-!
# The grammar of numerals

The words that are numbers, by a grammar of their own: a sign or none, digits with at most one point
before, among or after them, and an exponent or none. Reading a word follows the grammar. It gives
an integer when there is neither point nor exponent and the number fits into 64 bits, and else the
number nearest to the decimal fraction, unless that is infinite. All other words are keywords,
fields or strings.

* `integer?_eq_some_iff`, `exponent?_eq_some_iff`, `decimal?_eq_some_iff`: the parts of numerals;
* `ofNumeral?_integer_iff`, `ofNumeral?_float_iff`, `ofNumeral?_none_iff`: the value of a word;
* `toToken_numerals`: the words that are numbers, and all others.
-/

namespace RecordFilter

namespace Numeral

/-! ## The grammar -/

/-- A plus sign, a minus sign, which makes the number negative, or none. -/
inductive SignText : List Char → Bool → Prop
  | none : SignText [] false
  | plus : SignText ['+'] false
  | minus : SignText ['-'] true

/-- A sign or none, and one or more digits. -/
inductive IntegerText : List Char → Int → Prop
  | mk {sign ds : List Char} {negative : Bool} (isSign : SignText sign negative)
    (nonempty : ds ≠ []) (allDigits : AllDigits ds) :
    IntegerText (sign ++ ds) (signed negative (ofDigits ds))

/-- Digits with at most one point: the digits before the point, and those after it. -/
inductive PointText : List Char → List Char → List Char → Prop
  | whole {ds : List Char} (nonempty : ds ≠ []) (allDigits : AllDigits ds) : PointText ds ds []
  | pointAfter {whole fraction : List Char} (nonempty : whole ≠ []) (wholeDigits : AllDigits whole)
    (fractionDigits : AllDigits fraction) : PointText (whole ++ '.' :: fraction) whole fraction
  | pointBefore {whole fraction : List Char} (nonempty : fraction ≠ [])
    (wholeDigits : AllDigits whole) (fractionDigits : AllDigits fraction) :
    PointText (whole ++ '.' :: fraction) whole fraction

/-- Nothing, or a mark and an integer. -/
inductive ExponentText : List Char → Int → Prop
  | none : ExponentText [] 0
  | mark {c : Char} {text : List Char} {e : Int} (isMark : c = 'e' ∨ c = 'E')
    (integer : IntegerText text e) : ExponentText (c :: text) e

/-- A sign or none, digits with at most one point, and an exponent or none. -/
inductive DecimalText : List Char → Bool → Decimal → Prop
  | mk {sign body whole fraction exponent : List Char} {negative : Bool} {e : Int}
    (isSign : SignText sign negative) (isBody : PointText body whole fraction)
    (isExponent : ExponentText exponent e) :
    DecimalText (sign ++ (body ++ exponent)) negative
      ⟨ofDigits (whole ++ fraction), e - fraction.length⟩

/-! ## Signs -/

/-- A digit or a point is in front. -/
def BeginsNumber (text : List Char) : Prop :=
  ∃ c rest, text = c :: rest ∧ (c.isDigit = true ∨ c = '.')

theorem BeginsDigit.beginsNumber {text : List Char} (h : BeginsDigit text) : BeginsNumber text := by
  obtain ⟨c, rest, rfl, hc⟩ := h
  exact ⟨c, rest, rfl, Or.inl hc⟩

theorem exists_signText {w body : List Char} {negative : Bool}
    (h : splitSign w = (negative, body)) : ∃ sign, w = sign ++ body ∧ SignText sign negative := by
  unfold splitSign at h
  split at h <;> cases h
  · exact ⟨['+'], rfl, .plus⟩
  · exact ⟨['-'], rfl, .minus⟩
  · exact ⟨[], rfl, .none⟩

theorem SignText.splitSign_append {sign body : List Char} {negative : Bool}
    (h : SignText sign negative) (hbody : BeginsNumber body) :
    splitSign (sign ++ body) = (negative, body) := by
  cases h with
  | plus => rfl
  | minus => rfl
  | none =>
    obtain ⟨c, rest, rfl, hc⟩ := hbody
    unfold splitSign
    split
    · next heq =>
      cases heq
      exact absurd hc (by decide)
    · next heq =>
      cases heq
      exact absurd hc (by decide)
    · rfl

/-! ## Integers -/

theorem natural?_eq_some_iff {ds : List Char} {n : Nat} :
    natural? ds = some n ↔ ds ≠ [] ∧ AllDigits ds ∧ ofDigits ds = n := by
  simp [natural?, AllDigits]
  tauto

/-- **Integers are read by the grammar.** -/
theorem integer?_eq_some_iff {w : List Char} {n : Int} : integer? w = some n ↔ IntegerText w n := by
  constructor
  · intro h
    cases hsplit : splitSign w with
    | mk negative body =>
      rw [integer?, hsplit] at h
      obtain ⟨m, hm, rfl⟩ := Option.map_eq_some_iff.mp h
      obtain ⟨hne, hdigits, rfl⟩ := natural?_eq_some_iff.mp hm
      obtain ⟨sign, rfl, hsign⟩ := exists_signText hsplit
      exact .mk hsign hne hdigits
  · rintro ⟨hsign, hne, hdigits⟩
    have hbegins := (beginsDigit_append hne hdigits []).beginsNumber
    rw [List.append_nil] at hbegins
    rw [integer?, hsign.splitSign_append hbegins]
    dsimp only
    rw [natural?_eq_some_iff.mpr ⟨hne, hdigits, rfl⟩, Option.map_some]

theorem toInt64?_eq_some_iff {m : Int} {n : Int64} : toInt64? m = some n ↔ m = n.toInt := by
  constructor
  · intro h
    obtain ⟨⟨hlow, hhigh⟩, hn⟩ := Option.ite_none_right_eq_some.mp h
    rw [← Option.some.inj hn, Int64.toInt_ofInt_of_le hlow hhigh]
  · rintro rfl
    exact Value.toInt64?_toInt n

theorem integer64?_eq_some_iff {w : List Char} {n : Int64} :
    integer64? w = some n ↔ IntegerText w n.toInt := by
  rw [integer64?, Option.bind_eq_some_iff]
  constructor
  · rintro ⟨m, hm, hn⟩
    rw [← toInt64?_eq_some_iff.mp hn]
    exact integer?_eq_some_iff.mp hm
  · intro h
    exact ⟨n.toInt, integer?_eq_some_iff.mpr h, Value.toInt64?_toInt n⟩

/-! ## Decimal fractions -/

theorem exponent?_eq_some_iff {text : List Char} {e : Int} :
    exponent? text = some e ↔ ExponentText text e := by
  constructor
  · intro h
    cases text with
    | nil =>
      cases h
      exact .none
    | cons c rest =>
      obtain ⟨hc, hrest⟩ := Option.ite_none_right_eq_some.mp h
      exact .mark (by simpa using hc) (integer?_eq_some_iff.mp hrest)
  · intro h
    cases h with
    | none => rfl
    | mark hc hrest =>
      rw [exponent?, if_pos (by simpa using hc)]
      exact integer?_eq_some_iff.mpr hrest

theorem ExponentText.endsDigits {text : List Char} {e : Int} (h : ExponentText text e) :
    EndsDigits text := by
  cases h with
  | none => exact nofun
  | mark hc _ =>
    rintro c ⟨⟩
    rcases hc with rfl | rfl <;> decide

theorem ExponentText.head?_ne {text : List Char} {e : Int} (h : ExponentText text e) :
    text.head? ≠ some '.' := by
  cases h with
  | none => exact nofun
  | mark hc _ =>
    rintro ⟨⟩
    exact absurd hc (by decide)

theorem allDigits_digits (text : List Char) : AllDigits (digits text) :=
  fun _ hc => List.all_eq_true.mp List.all_takeWhile _ hc

theorem splitFraction_cases {text fraction rest : List Char}
    (h : splitFraction text = (fraction, rest)) :
    (text = '.' :: (fraction ++ rest) ∧ AllDigits fraction) ∨ (fraction = [] ∧ text = rest) := by
  unfold splitFraction at h
  split at h <;> cases h
  · exact Or.inl ⟨by rw [digits_split], allDigits_digits _⟩
  · exact Or.inr ⟨rfl, rfl⟩

/-- What is read without a sign is digits with at most one point, and an exponent or none. -/
theorem exists_pointText {text : List Char} {d : Decimal} (h : unsigned? text = some d) :
    ∃ body whole fraction exponent e, text = body ++ exponent ∧ PointText body whole fraction ∧
      ExponentText exponent e ∧ d = ⟨ofDigits (whole ++ fraction), e - fraction.length⟩ := by
  have hwhole := allDigits_digits text
  have hsplit := digits_split text
  unfold unsigned? at h
  generalize digits text = whole at h hwhole hsplit
  generalize afterDigits text = after at h hsplit
  subst hsplit
  cases hafter : splitFraction after with
  | mk fraction exponent =>
    rw [hafter] at h
    obtain ⟨hne, h⟩ := Option.ite_none_left_eq_some.mp h
    obtain ⟨e, he, rfl⟩ := Option.map_eq_some_iff.mp h
    rw [Bool.and_eq_true, List.isEmpty_iff, List.isEmpty_iff, not_and_or] at hne
    have hexponent := exponent?_eq_some_iff.mp he
    rcases splitFraction_cases hafter with ⟨rfl, hfraction⟩ | ⟨rfl, rfl⟩
    · have hbody : PointText (whole ++ '.' :: fraction) whole fraction := by
        rcases hne with hne | hne
        · exact .pointAfter hne hwhole hfraction
        · exact .pointBefore hne hwhole hfraction
      exact ⟨_, whole, fraction, exponent, e, by simp, hbody, hexponent, rfl⟩
    · have hbody : PointText whole whole [] := .whole (hne.resolve_right fun h => h rfl) hwhole
      exact ⟨whole, whole, [], after, e, rfl, hbody, hexponent, rfl⟩

theorem unsigned?_append {body whole fraction exponent : List Char} {e : Int}
    (hbody : PointText body whole fraction) (hexponent : ExponentText exponent e) :
    unsigned? (body ++ exponent) = some ⟨ofDigits (whole ++ fraction), e - fraction.length⟩ := by
  have hread := exponent?_eq_some_iff.mpr hexponent
  have hends := hexponent.endsDigits
  cases hbody with
  | whole hne hdigits =>
    rw [unsigned?_whole hne hdigits hends hexponent.head?_ne, hread]
    simp
  | pointAfter hne hwhole hfraction =>
    rw [List.append_assoc, List.cons_append,
      unsigned?_around (Or.inl hne) hwhole hfraction hends, hread, Option.map_some]
  | pointBefore hne hwhole hfraction =>
    rw [List.append_assoc, List.cons_append,
      unsigned?_around (Or.inr hne) hwhole hfraction hends, hread, Option.map_some]

theorem PointText.beginsNumber {body whole fraction : List Char}
    (h : PointText body whole fraction) (rest : List Char) : BeginsNumber (body ++ rest) := by
  cases h with
  | whole hne hdigits => exact (beginsDigit_append hne hdigits rest).beginsNumber
  | pointAfter hne hwhole _ =>
    rw [List.append_assoc]
    exact (beginsDigit_append hne hwhole _).beginsNumber
  | pointBefore _ hwhole _ =>
    rw [List.append_assoc]
    by_cases hempty : whole = []
    · subst hempty
      exact ⟨'.', _, rfl, Or.inr rfl⟩
    · exact (beginsDigit_append hempty hwhole _).beginsNumber

/-- **Decimal fractions are read by the grammar**, to the number nearest to them. -/
theorem decimal?_eq_some_iff {w : List Char} {x : Binary64} :
    decimal? w = some x ↔ ∃ negative d, DecimalText w negative d ∧ d.toBinary64 negative = x := by
  constructor
  · intro h
    cases hsplit : splitSign w with
    | mk negative text =>
      rw [decimal?, hsplit] at h
      obtain ⟨d, hd, hx⟩ := Option.map_eq_some_iff.mp h
      obtain ⟨body, whole, fraction, exponent, e, rfl, hbody, hexponent, rfl⟩ :=
        exists_pointText hd
      obtain ⟨sign, rfl, hsign⟩ := exists_signText hsplit
      exact ⟨negative, _, .mk hsign hbody hexponent, hx⟩
  · rintro ⟨negative, d, ⟨hsign, hbody, hexponent⟩, rfl⟩
    rw [decimal?, hsign.splitSign_append (hbody.beginsNumber _)]
    dsimp only
    rw [unsigned?_append hbody hexponent, Option.map_some]

theorem IntegerText.decimalText {w : List Char} {n : Int} (h : IntegerText w n) :
    ∃ negative d, DecimalText w negative d ∧ d.value = n.natAbs := by
  obtain @⟨sign, ds, negative, hsign, hne, hdigits⟩ := h
  have htext := DecimalText.mk hsign (.whole hne hdigits) .none
  simp only [List.append_nil] at htext
  refine ⟨negative, _, htext, ?_⟩
  have hvalue : (signed negative (ofDigits ds)).natAbs = ofDigits ds := by
    cases negative <;> simp [signed]
  rw [hvalue, Decimal.value]
  simp

end Numeral

/-! ## Words -/

namespace Value

open Numeral

theorem isDigit_of_pointText {body whole fraction : List Char} (h : PointText body whole fraction)
    (rest : List Char) :
    (((if (body ++ rest).head? = some '.' then (body ++ rest).tail else body ++ rest).head?).map
      Char.isDigit).getD false = true := by
  have hdigit : ∀ text, BeginsDigit text →
      (((if text.head? = some '.' then text.tail else text).head?).map
        Char.isDigit).getD false = true := by
    rintro text ⟨c, cs, rfl, hc⟩
    have hpoint : c ≠ '.' := by
      rintro rfl
      cases hc
    simp [hpoint, hc]
  cases h with
  | whole hne hdigits => exact hdigit _ (beginsDigit_append hne hdigits rest)
  | pointAfter hne hwhole _ =>
    rw [List.append_assoc]
    exact hdigit _ (beginsDigit_append hne hwhole _)
  | pointBefore hne hwhole hfraction =>
    rw [List.append_assoc]
    by_cases hempty : whole = []
    · subst hempty
      obtain ⟨c, cs, htext, hc⟩ := beginsDigit_append hne hfraction rest
      simp [htext, hc]
    · exact hdigit _ (beginsDigit_append hempty hwhole _)

/-- What a decimal numeral is as a word. -/
theorem ofNumeral?_decimalText {w : List Char} {negative : Bool} {d : Decimal}
    (h : DecimalText w negative d) :
    ofNumeral? w =
      match integer64? w with
      | some n => some (.integer n)
      | none =>
        if (d.toBinary64 negative).isFinite then some (.float (d.toBinary64 negative))
        else none := by
  have hread := decimal?_eq_some_iff.mpr ⟨negative, d, h, rfl⟩
  obtain ⟨hsign, hbody, hexponent⟩ := h
  rw [ofNumeral?, hread, hsign.splitSign_append (hbody.beginsNumber _)]
  exact if_pos (isDigit_of_pointText hbody _)

theorem ofNumeral?_eq_none {w : List Char} (h : ∀ negative d, ¬ DecimalText w negative d) :
    ofNumeral? w = none := by
  have hinteger : integer64? w = none := by
    refine Option.eq_none_iff_forall_ne_some.mpr fun n hn => ?_
    obtain ⟨negative, d, htext, -⟩ := (integer64?_eq_some_iff.mp hn).decimalText
    exact h negative d htext
  have hdecimal : decimal? w = none := by
    refine Option.eq_none_iff_forall_ne_some.mpr fun x hx => ?_
    obtain ⟨negative, d, htext, -⟩ := decimal?_eq_some_iff.mp hx
    exact h negative d htext
  rw [ofNumeral?, hinteger, hdecimal, ite_self]

theorem ofNumeral?_integer_iff {w : List Char} {n : Int64} :
    ofNumeral? w = some (.integer n) ↔ IntegerText w n.toInt := by
  rw [← integer64?_eq_some_iff]
  constructor
  · intro h
    unfold ofNumeral? at h
    obtain ⟨-, h⟩ := Option.ite_none_right_eq_some.mp h
    split at h
    · next m hm =>
      cases h
      exact hm
    · split at h
      · obtain ⟨-, h⟩ := Option.ite_none_right_eq_some.mp h
        cases h
      · cases h
  · intro h
    obtain ⟨negative, d, htext, -⟩ := (integer64?_eq_some_iff.mp h).decimalText
    rw [ofNumeral?_decimalText htext, h]

/-- A word is a floating-point number when it is a decimal numeral, but not an integer of 64 bits,
and the number nearest to it is finite. -/
theorem ofNumeral?_float_iff {w : List Char} {x : Binary64} :
    ofNumeral? w = some (.float x) ↔
      (¬ ∃ n : Int64, IntegerText w n.toInt) ∧
        ∃ negative d, DecimalText w negative d ∧ d.toBinary64 negative = x ∧ x.isFinite = true := by
  simp only [← integer64?_eq_some_iff]
  constructor
  · intro h
    unfold ofNumeral? at h
    obtain ⟨-, h⟩ := Option.ite_none_right_eq_some.mp h
    split at h
    · cases h
    · next hn =>
      split at h
      · next y hy =>
        obtain ⟨hfinite, h⟩ := Option.ite_none_right_eq_some.mp h
        cases h
        obtain ⟨negative, d, htext, hx⟩ := decimal?_eq_some_iff.mp hy
        refine ⟨?_, negative, d, htext, hx, hfinite⟩
        rintro ⟨n, hsome⟩
        rw [hn] at hsome
        cases hsome
      · cases h
  · rintro ⟨hn, negative, d, htext, rfl, hfinite⟩
    have hnone : integer64? w = none :=
      Option.eq_none_iff_forall_ne_some.mpr fun n hsome => hn ⟨n, hsome⟩
    rw [ofNumeral?_decimalText htext, hnone]
    exact if_pos hfinite

theorem value_lt_of_int64 (n : Int64) : (n.toInt.natAbs : ℚ) < 2 ^ 1024 - 2 ^ 970 := by
  have hlow := n.le_toInt
  have hhigh := n.toInt_lt
  have hnat : n.toInt.natAbs ≤ 2 ^ 63 := by omega
  have hbound : (n.toInt.natAbs : ℚ) ≤ 2 ^ 63 := by exact_mod_cast hnat
  have hsplit : (2 : ℚ) ^ 1024 = 2 ^ 54 * 2 ^ 970 := pow_add 2 54 970
  have hmono : (2 : ℚ) ^ 63 ≤ 2 ^ 970 := pow_le_pow_right₀ (by decide) (by decide)
  rw [hsplit]
  generalize (2 : ℚ) ^ 970 = large at hmono ⊢
  linarith

theorem integer64?_of_overflow {w : List Char} {negative : Bool} {d : Decimal}
    (h : DecimalText w negative d) (hd : 2 ^ 1024 - 2 ^ 970 ≤ d.value) : integer64? w = none := by
  refine Option.eq_none_iff_forall_ne_some.mpr fun n hn => ?_
  obtain ⟨negative', d', h', hd'⟩ := (integer64?_eq_some_iff.mp hn).decimalText
  have hread := decimal?_eq_some_iff.mpr ⟨negative, d, h, rfl⟩
  rw [decimal?_eq_some_iff.mpr ⟨negative', d', h', rfl⟩, Option.some.injEq] at hread
  have hfinite := (Decimal.isFinite_toBinary64_iff negative' d').mpr (hd' ▸ value_lt_of_int64 n)
  rw [hread, Decimal.isFinite_toBinary64_iff] at hfinite
  exact not_lt.mpr hd hfinite

theorem ofNumeral?_none_iff {w : List Char} :
    ofNumeral? w = none ↔
      (∀ negative d, ¬ DecimalText w negative d) ∨
        ∃ negative d, DecimalText w negative d ∧ 2 ^ 1024 - 2 ^ 970 ≤ d.value := by
  constructor
  · intro h
    refine or_iff_not_imp_left.mpr fun hsome => ?_
    push Not at hsome
    obtain ⟨negative, d, htext⟩ := hsome
    refine ⟨negative, d, htext, not_lt.mp fun hfinite => ?_⟩
    rw [← Decimal.isFinite_toBinary64_iff negative] at hfinite
    rw [ofNumeral?_decimalText htext] at h
    split at h
    · cases h
    · rw [if_pos hfinite] at h
      cases h
  · rintro (hnone | ⟨negative, d, htext, hd⟩)
    · exact ofNumeral?_eq_none hnone
    · rw [ofNumeral?_decimalText htext, integer64?_of_overflow htext hd]
      refine if_neg ?_
      rw [Decimal.isFinite_toBinary64_iff, not_lt]
      exact hd

end Value

/-! ## Tokens -/

namespace Lexeme

open Numeral Value

theorem ofText_ofInt (n : Int64) (ignoreCase : Bool) :
    TokenList.ofText (ofInt n.toInt) ignoreCase = ⟨[.literal (.integer n), .endOfInput], none⟩ := by
  have hends : EndsWord [] := nofun
  obtain ⟨hread, htoken⟩ := read?_numeral (ofNumeral?_ofInt n)
    (fun c hc => (ofInt_chars _ c hc).imp_right fun h => Or.inr (Or.inr h)) hends
  rw [List.append_nil] at hread
  rw [TokenList.ofText_eq, readAll_of_read? hread (htoken ignoreCase false) rfl, readAll_blank rfl]
  rfl

/-- **The words that are numbers** are those of the grammar. A word is an integer just when it is an
integer numeral of 64 bits, a floating-point number just when it is another decimal numeral that is
rounded to a finite number, and else a keyword, a field or a string. An integer as it is printed is
read back; names of numbers, other digits and numerals with letters behind them are no numbers. -/
theorem toToken_numerals :
    (∀ w : List Char,
      (∀ n : Int64, ofNumeral? w = some (.integer n) ↔ IntegerText w n.toInt) ∧
      (∀ x : Binary64, ofNumeral? w = some (.float x) ↔
        (¬ ∃ n : Int64, IntegerText w n.toInt) ∧
          ∃ negative d, DecimalText w negative d ∧ d.toBinary64 negative = x ∧
            x.isFinite = true) ∧
      (ofNumeral? w = none ↔
        (∀ negative d, ¬ DecimalText w negative d) ∨
          ∃ negative d, DecimalText w negative d ∧ 2 ^ 1024 - 2 ^ 970 ≤ d.value) ∧
      ∀ ignoreCase awaitsLiteral,
        (Lexeme.word w).toToken ignoreCase awaitsLiteral =
          match ofNumeral? w, Token.keyword? ignoreCase w with
          | some v, _ => .literal v
          | none, some t => t
          | none, none =>
            if awaitsLiteral then .literal (.string (String.ofList w))
            else .field (String.ofList w)) ∧
    (∀ (n : Int64) (ignoreCase : Bool), TokenList.ofText (ofInt n.toInt) ignoreCase =
      ⟨[.literal (.integer n), .endOfInput], none⟩) ∧
    ∀ w ∈ ["inf", "nan", "12abc", "0x10"], ofNumeral? w.toList = none := by
  refine ⟨fun w => ⟨fun n => ofNumeral?_integer_iff, fun x => ofNumeral?_float_iff,
    ofNumeral?_none_iff, fun ignoreCase awaitsLiteral => ?_⟩, ofText_ofInt, by decide⟩
  rw [toToken]
  cases hvalue : ofNumeral? w with
  | none => cases Token.keyword? ignoreCase w <;> rfl
  | some v => rw [keyword?_eq_none hvalue]

end Lexeme

end RecordFilter
