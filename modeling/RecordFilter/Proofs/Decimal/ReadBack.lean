import Mathlib
import RecordFilter.Decimal.Layout
import RecordFilter.Proofs.Decimal.Exact

/-!
# Numerals are read back

What is written of a number is a numeral of the same number. For integers the numeral is the number
itself. The layouts of a decimal fraction shift the point and add zeros, so the numeral is another
fraction of the same magnitude; and the digits laid out are those of the shortest fraction.

* `integer?_ofInt`: integers;
* `unsigned?_point`, `unsigned?_whole`: numerals with and without a point, put together from parts;
* `spells_layOut`, `spells_text`: the layouts of decimal fractions and of magnitudes.
-/

namespace RecordFilter.Numeral

/-! ## Digits -/

theorem ofDigits_append (ds es : List Char) :
    ofDigits (ds ++ es) = 10 ^ es.length * ofDigits ds + ofDigits es :=
  (Nat.ofDigitChars_append 0).trans Nat.ofDigitChars_eq_ofDigitChars_zero

theorem ofDigits_zeros (n : Nat) : ofDigits (List.replicate n '0') = 0 :=
  Nat.ofDigitChars_replicate_zero.trans (Nat.mul_zero _)

theorem ofDigits_append_zeros (ds : List Char) (n : Nat) :
    ofDigits (ds ++ List.replicate n '0') = ofDigits ds * 10 ^ n := by
  rw [ofDigits_append, ofDigits_zeros, List.length_replicate, Nat.add_zero, Nat.mul_comm]

theorem ofDigits_zeros_append (n : Nat) (ds : List Char) :
    ofDigits (List.replicate n '0' ++ ds) = ofDigits ds := by
  rw [ofDigits_append, ofDigits_zeros, Nat.mul_zero, Nat.zero_add]

theorem ofDigits_toDigits (n : Nat) : ofDigits (Nat.toDigits 10 n) = n :=
  Nat.ofDigitChars_ten_toDigits

/-- The text consists of decimal digits. -/
def AllDigits (text : List Char) : Prop := ∀ c ∈ text, c.isDigit = true

theorem allDigits_nil : AllDigits [] := List.forall_mem_nil _

theorem allDigits_toDigits (n : Nat) : AllDigits (Nat.toDigits 10 n) :=
  fun _ => Nat.isDigit_of_mem_toDigits (by decide) (by decide)

theorem allDigits_zeros (n : Nat) : AllDigits (List.replicate n '0') := by
  intro c hc
  rw [List.eq_of_mem_replicate hc]
  decide

theorem AllDigits.append {ds es : List Char} (hds : AllDigits ds) (hes : AllDigits es) :
    AllDigits (ds ++ es) := fun c hc =>
  (List.mem_append.mp hc).elim (hds c) (hes c)

/-- No digit is in front. -/
def EndsDigits (text : List Char) : Prop := ∀ c, text.head? = some c → c.isDigit = false

theorem digits_append {ds rest : List Char} (hds : AllDigits ds) (hrest : EndsDigits rest) :
    digits (ds ++ rest) = ds := by
  rw [digits, List.takeWhile_append_of_pos hds]
  cases rest with
  | nil => simp
  | cons c cs => simp [hrest c rfl]

theorem afterDigits_append {ds rest : List Char} (hds : AllDigits ds) (hrest : EndsDigits rest) :
    afterDigits (ds ++ rest) = rest := by
  rw [afterDigits, List.dropWhile_append_of_pos hds]
  cases rest with
  | nil => simp
  | cons c cs => simp [hrest c rfl]

/-! ## Integers -/

theorem natural?_toDigits (n : Nat) : natural? (Nat.toDigits 10 n) = some n := by
  have hall : (Nat.toDigits 10 n).all Char.isDigit = true :=
    List.all_eq_true.mpr (allDigits_toDigits n)
  rw [natural?, hall, ofDigits_toDigits]
  simp [Nat.toDigits_ne_nil]

/-- A digit is in front. -/
def BeginsDigit (text : List Char) : Prop := ∃ c rest, text = c :: rest ∧ c.isDigit = true

theorem splitSign_digit {text : List Char} (h : BeginsDigit text) :
    splitSign text = (false, text) := by
  obtain ⟨c, rest, rfl, hc⟩ := h
  unfold splitSign
  split
  · next heq =>
    cases heq
    cases hc
  · next heq =>
    cases heq
    cases hc
  · rfl

theorem splitSign_signed {text : List Char} (h : BeginsDigit text) (negative : Bool) :
    splitSign (if negative then '-' :: text else text) = (negative, text) := by
  cases negative with
  | true => rfl
  | false => exact splitSign_digit h

theorem beginsDigit_append {ds : List Char} (hne : ds ≠ []) (hds : AllDigits ds)
    (rest : List Char) : BeginsDigit (ds ++ rest) := by
  obtain ⟨c, cs, rfl⟩ := List.exists_cons_of_ne_nil hne
  exact ⟨c, cs ++ rest, rfl, hds c List.mem_cons_self⟩

theorem beginsDigit_toDigits (n : Nat) : BeginsDigit (Nat.toDigits 10 n) := by
  simpa using beginsDigit_append Nat.toDigits_ne_nil (allDigits_toDigits n) []

theorem splitSign_ofInt (n : Int) :
    splitSign (ofInt n) = (decide (n < 0), Nat.toDigits 10 n.natAbs) := by
  have hsplit := splitSign_signed (beginsDigit_toDigits n.natAbs) (decide (n < 0))
  simp only [decide_eq_true_eq] at hsplit
  exact hsplit

theorem integer?_ofInt (n : Int) : integer? (ofInt n) = some n := by
  rw [integer?, splitSign_ofInt]
  dsimp only
  rw [natural?_toDigits, Option.map_some, signed]
  congr 1
  split
  · next h =>
    rw [decide_eq_true_eq] at h
    omega
  · next h =>
    rw [decide_eq_true_eq] at h
    omega

theorem ofInt_chars (n : Int) : ∀ c ∈ ofInt n, c.isDigit = true ∨ c = '-' := by
  intro c hc
  unfold ofInt at hc
  split at hc
  · rcases List.mem_cons.mp hc with rfl | hc
    · exact Or.inr rfl
    · exact Or.inl (allDigits_toDigits _ c hc)
  · exact Or.inl (allDigits_toDigits _ c hc)

/-! ## Decimal numerals -/

theorem exponent?_ofInt (n : Int) : exponent? ('e' :: ofInt n) = some n :=
  integer?_ofInt n

/-- A numeral with a point, which has digits on one side at least. -/
theorem unsigned?_around {whole fraction rest : List Char} (hne : whole ≠ [] ∨ fraction ≠ [])
    (hwhole : AllDigits whole) (hfraction : AllDigits fraction) (hrest : EndsDigits rest) :
    unsigned? (whole ++ '.' :: (fraction ++ rest)) =
      (exponent? rest).map fun e => ⟨ofDigits (whole ++ fraction), e - fraction.length⟩ := by
  have hpoint : EndsDigits ('.' :: (fraction ++ rest)) := by
    rintro c ⟨⟩
    decide
  simp only [unsigned?, digits_append hwhole hpoint, afterDigits_append hwhole hpoint,
    splitFraction, digits_append hfraction hrest, afterDigits_append hfraction hrest]
  rcases hne with hne | hne <;> simp [hne]

theorem unsigned?_point {whole fraction rest : List Char} (hne : whole ≠ [])
    (hwhole : AllDigits whole) (hfraction : AllDigits fraction) (hrest : EndsDigits rest) :
    unsigned? (whole ++ '.' :: (fraction ++ rest)) =
      (exponent? rest).map fun e => ⟨ofDigits (whole ++ fraction), e - fraction.length⟩ :=
  unsigned?_around (Or.inl hne) hwhole hfraction hrest

theorem unsigned?_whole {whole rest : List Char} (hne : whole ≠ []) (hwhole : AllDigits whole)
    (hrest : EndsDigits rest) (hpoint : rest.head? ≠ some '.') :
    unsigned? (whole ++ rest) = (exponent? rest).map fun e => ⟨ofDigits whole, e⟩ := by
  have hsplit : splitFraction rest = ([], rest) := by
    unfold splitFraction
    split
    · exact absurd rfl hpoint
    · rfl
  simp only [unsigned?, digits_append hwhole hrest, afterDigits_append hwhole hrest, hsplit]
  simp [hne]

end RecordFilter.Numeral

namespace RecordFilter.Decimal

open Numeral Binary64

/-! ## Significant digits -/

/-- The digits of a number other than zero are its significant digits and zeros. -/
theorem toDigits_eq_significantDigits {d : Decimal} (hd : d.significand ≠ 0) :
    ∃ zeros, Nat.toDigits 10 d.significand = d.significantDigits ++ List.replicate zeros '0' ∧
      d.significantDigits ≠ [] ∧ AllDigits d.significantDigits := by
  have hzeros : ∀ c ∈ (Nat.toDigits 10 d.significand).reverse.takeWhile (· == '0'), c = '0' :=
    fun c hc => beq_iff_eq.mp (List.all_eq_true.mp List.all_takeWhile c hc)
  have hsplit := List.takeWhile_append_dropWhile (p := (· == '0'))
    (l := (Nat.toDigits 10 d.significand).reverse)
  rw [List.eq_replicate_of_mem hzeros] at hsplit
  generalize ((Nat.toDigits 10 d.significand).reverse.takeWhile (· == '0')).length = zeros at hsplit
  have hdigits : Nat.toDigits 10 d.significand =
      d.significantDigits ++ List.replicate zeros '0' := by
    rw [significantDigits, ← List.reverse_replicate, ← List.reverse_append, hsplit,
      List.reverse_reverse]
  refine ⟨zeros, hdigits, fun hnil => hd ?_, fun c hc => ?_⟩
  · rw [← ofDigits_toDigits d.significand, hdigits, hnil, List.nil_append, ofDigits_zeros]
  · exact allDigits_toDigits d.significand c (hdigits ▸ List.mem_append_left _ hc)

/-- The magnitude by the significant digits, the first of which counts `10 ^ leadingExponent`. -/
theorem rank_significantDigits {d : Decimal} (hd : d.significand ≠ 0) :
    d.rank = rank ⟨ofDigits d.significantDigits,
      d.leadingExponent + 1 - d.significantDigits.length⟩ := by
  obtain ⟨zeros, hdigits, -, -⟩ := toDigits_eq_significantDigits hd
  have hvalue : d.significand = ofDigits d.significantDigits * 10 ^ zeros := by
    rw [← ofDigits_append_zeros, ← hdigits, ofDigits_toDigits]
  have hexponent : d.leadingExponent + 1 - d.significantDigits.length = d.exponent + zeros := by
    rw [leadingExponent, hdigits, List.length_append, List.length_replicate]
    omega
  rw [hexponent, ← rank_zeros, ← hvalue]

/-! ## Layouts -/

/-- The text is an unsigned numeral of the magnitude that shows that it is not an integer: it has a
point or an exponent. -/
structure Spells (text : List Char) (r : Rank) : Prop where
  begins : BeginsDigit text
  notWhole : ¬ AllDigits text
  reads : ∃ d, unsigned? text = some d ∧ d.rank = r
  chars : ∀ c ∈ text, c.isDigit = true ∨ c = '.' ∨ c = 'e' ∨ c = '-'

theorem spells_point {whole fraction : List Char} {r : Rank} (hne : whole ≠ [])
    (hwhole : AllDigits whole) (hfraction : AllDigits fraction)
    (hr : rank ⟨ofDigits (whole ++ fraction), -fraction.length⟩ = r) :
    Spells (whole ++ '.' :: fraction) r where
  begins := by
    obtain ⟨c, cs, rfl⟩ := List.exists_cons_of_ne_nil hne
    exact ⟨c, _, rfl, hwhole c List.mem_cons_self⟩
  notWhole := fun hall => by
    have := hall '.' (List.mem_append_right _ List.mem_cons_self)
    revert this
    decide
  reads := by
    have hend : EndsDigits [] := nofun
    have hread := unsigned?_point hne hwhole hfraction hend
    rw [List.append_nil] at hread
    refine ⟨_, hread, ?_⟩
    dsimp only
    rw [Int.zero_sub]
    exact hr
  chars := fun c hc => by
    rcases List.mem_append.mp hc with hc | hc
    · exact Or.inl (hwhole c hc)
    · rcases List.mem_cons.mp hc with rfl | hc
      · exact Or.inr (Or.inl rfl)
      · exact Or.inl (hfraction c hc)

section Positional
variable {s : List Char} {e : Int} {r : Rank}

theorem spells_positional_of_neg (hs : AllDigits s) (he : e < 0)
    (hr : rank ⟨ofDigits s, e + 1 - s.length⟩ = r) : Spells (positional ".0" s e) r := by
  have htext : positional ".0" s e =
      ['0'] ++ '.' :: (List.replicate (-e - 1).toNat '0' ++ s) := by
    rw [positional, if_pos he]
    simp
  have hvalue : ofDigits (['0'] ++ (List.replicate (-e - 1).toNat '0' ++ s)) = ofDigits s :=
    ofDigits_zeros_append ((-e - 1).toNat + 1) s
  rw [htext]
  refine spells_point (by simp) (allDigits_zeros 1) ((allDigits_zeros _).append hs) ?_
  rw [hvalue, ← hr, List.length_append, List.length_replicate]
  congr 2
  omega

theorem spells_positional_of_whole (hne : s ≠ []) (hs : AllDigits s) (he : 0 ≤ e)
    (hlen : s.length ≤ e.toNat + 1) (hr : rank ⟨ofDigits s, e + 1 - s.length⟩ = r) :
    Spells (positional ".0" s e) r := by
  have htext : positional ".0" s e =
      (s ++ List.replicate (e.toNat + 1 - s.length) '0') ++ '.' :: ['0'] := by
    rw [positional, if_neg (Int.not_lt.mpr he)]
    exact if_pos hlen
  have hvalue : ofDigits (s ++ List.replicate (e.toNat + 1 - s.length) '0' ++ ['0']) =
      ofDigits s * 10 ^ (e.toNat + 1 - s.length + 1) := by
    rw [List.append_assoc, ← List.replicate_succ', ofDigits_append_zeros]
  rw [htext]
  refine spells_point (by simp [hne]) (hs.append (allDigits_zeros _)) (allDigits_zeros 1) ?_
  rw [hvalue, rank_zeros, ← hr]
  congr 2
  rw [List.length_singleton]
  omega

theorem spells_positional_of_fraction (hne : s ≠ []) (hs : AllDigits s) (he : 0 ≤ e)
    (hlen : e.toNat + 1 < s.length) (hr : rank ⟨ofDigits s, e + 1 - s.length⟩ = r) :
    Spells (positional ".0" s e) r := by
  have htext : positional ".0" s e = s.take (e.toNat + 1) ++ '.' :: s.drop (e.toNat + 1) := by
    rw [positional, if_neg (Int.not_lt.mpr he)]
    refine (if_neg (Nat.not_le.mpr hlen)).trans ?_
    rw [List.append_assoc, List.singleton_append]
  rw [htext]
  refine spells_point (by simp [hne]) (fun c hc => hs c (List.mem_of_mem_take hc))
    (fun c hc => hs c (List.mem_of_mem_drop hc)) ?_
  rw [List.take_append_drop, ← hr, List.length_drop]
  congr 2
  omega

/-- Positional notation: the point stands before the digits, after them or among them. -/
theorem spells_positional (hne : s ≠ []) (hs : AllDigits s)
    (hr : rank ⟨ofDigits s, e + 1 - s.length⟩ = r) : Spells (positional ".0" s e) r := by
  rcases Int.lt_or_le e 0 with he | he
  · exact spells_positional_of_neg hs he hr
  · rcases Nat.lt_or_ge (e.toNat + 1) s.length with hlen | hlen
    · exact spells_positional_of_fraction hne hs he hlen hr
    · exact spells_positional_of_whole hne hs he hlen hr

end Positional

theorem spells_exponent {c : Char} {body : List Char} {e : Int} {d : Decimal}
    (hc : c.isDigit = true) (hbody : ∀ b ∈ body, b.isDigit = true ∨ b = '.')
    (hread : unsigned? (c :: (body ++ 'e' :: ofInt e)) = some d) :
    Spells (c :: (body ++ 'e' :: ofInt e)) d.rank where
  begins := ⟨c, _, rfl, hc⟩
  notWhole := fun hall => by
    have := hall 'e' (List.mem_cons_of_mem c (List.mem_append_right body List.mem_cons_self))
    revert this
    decide
  reads := ⟨d, hread, rfl⟩
  chars := fun b hb => by
    rcases List.mem_cons.mp hb with rfl | hb
    · exact Or.inl hc
    · rcases List.mem_append.mp hb with hb | hb
      · exact (hbody b hb).imp_right Or.inl
      · rcases List.mem_cons.mp hb with rfl | hb
        · exact Or.inr (Or.inr (Or.inl rfl))
        · exact (ofInt_chars e b hb).imp_right fun h => Or.inr (Or.inr h)

theorem spells_scientific {s : List Char} {e : Int} {r : Rank} (hne : s ≠ []) (hs : AllDigits s)
    (hr : rank ⟨ofDigits s, e + 1 - s.length⟩ = r) : Spells (scientific s e) r := by
  have hexponent : EndsDigits ('e' :: ofInt e) := by
    rintro d ⟨⟩
    decide
  obtain ⟨c, cs, rfl⟩ := List.exists_cons_of_ne_nil hne
  have hc := hs c List.mem_cons_self
  have hcs : AllDigits cs := fun d hd => hs d (List.mem_cons_of_mem c hd)
  rw [List.length_cons] at hr
  by_cases hempty : cs = []
  · subst hempty
    have hread := unsigned?_whole hne hs hexponent (by simp)
    rw [exponent?_ofInt, Option.map_some] at hread
    rw [List.length_nil, Nat.zero_add, Int.natCast_one, Int.add_sub_cancel] at hr
    rw [← hr]
    exact spells_exponent hc (by simp) hread
  · have htext : scientific (c :: cs) e = c :: ('.' :: cs ++ 'e' :: ofInt e) := by
      simp [scientific, hempty]
    have hread := unsigned?_point (List.cons_ne_nil c []) (by simpa [AllDigits] using hc) hcs
      hexponent
    rw [exponent?_ofInt, Option.map_some] at hread
    have hplaces : e + 1 - (cs.length + 1 : Nat) = e - cs.length := by omega
    rw [htext, ← hr, hplaces]
    refine spells_exponent hc (List.forall_mem_cons.mpr ⟨Or.inr rfl, ?_⟩) hread
    exact fun b hb => Or.inl (hcs b hb)

theorem spells_layOut {d : Decimal} (hd : d.significand ≠ 0) :
    Spells (d.layOut .literal) d.rank := by
  obtain ⟨-, -, hne, hs⟩ := toDigits_eq_significantDigits hd
  have hr := (rank_significantDigits hd).symm
  unfold layOut
  dsimp only
  split
  · exact spells_positional hne hs hr
  · exact spells_scientific hne hs hr

/-- **The text of a finite magnitude spells it.** -/
theorem spells_text {r : Rank} (hr : r ≠ .infinity) : Spells (r.text .literal) r := by
  rw [Rank.text, if_neg hr]
  split
  · next hzero =>
    show Spells (['0'] ++ '.' :: ['0']) r
    exact spells_point (by simp) (allDigits_zeros 1) (allDigits_zeros 1) (hzero ▸ rank_zero _)
  · next hzero =>
    have hlaid := spells_layOut (shortest_ne_zero hzero)
    rw [rank_shortest] at hlaid
    exact hlaid

end RecordFilter.Decimal
