import Mathlib
import RecordFilter.Json.Reader
import RecordFilter.Proofs.Json.NumberText

/-!
# Strings, numbers and words

The grammar of RFC 8259 for what has no parts: the body of a string with its escapes, numbers, and
the three words. What a reader takes off the front of a text is derived by the grammar, and what the
grammar derives is taken off the front of every text that goes on with something else.

* `escaped?_sound`, `escaped?_complete`: what follows a backslash;
* `stringAfter_sound`, `stringAfter_complete`: strings;
* `Number.read?_sound`: numbers, whose texts are read as they are (`Number.read?_text`);
* `word?_sound`, `word?_complete`: words.
-/

namespace RecordFilter.Json

/-! ## Strings -/

/-- The characters that stand for another one after a backslash. -/
def shortEscapes : List (Char × Char) :=
  [('"', '"'), ('\\', '\\'), ('/', '/'), ('b', '\x08'), ('f', '\x0c'), ('n', '\n'), ('r', '\r'),
    ('t', '\t')]

/-- Four hexadecimal digits and the unit that they spell. -/
inductive Quad : List Char → Nat → Prop
  | digits {a b c d : Char} {w x y z : Nat} (ha : hexDigit? a = some w) (hb : hexDigit? b = some x)
    (hc : hexDigit? c = some y) (hd : hexDigit? d = some z) :
    Quad [a, b, c, d] (((w * 16 + x) * 16 + y) * 16 + z)

/-- What follows a backslash, and the character that it stands for. -/
inductive Escape : List Char → Char → Prop
  | short {c d : Char} (h : (c, d) ∈ shortEscapes) : Escape [c] d
  | unit {quad : List Char} {unit : Nat} (hquad : Quad quad unit)
    (hlow : isLowSurrogate unit = false) (hhigh : isHighSurrogate unit = false) :
    Escape ('u' :: quad) (Char.ofNat unit)
  | pair {quad quad' : List Char} {high low : Nat} (hquad : Quad quad high)
    (hhigh : isHighSurrogate high = true) (hquad' : Quad quad' low)
    (hlow : isLowSurrogate low = true) :
    Escape ('u' :: (quad ++ '\\' :: 'u' :: quad'))
      (Char.ofNat (0x10000 + (high - 0xD800) * 0x400 + (low - 0xDC00)))

/-- The body of a string, and the characters that it stands for. -/
inductive Body : List Char → List Char → Prop
  | nil : Body [] []
  | plain {c : Char} {text cs : List Char} (hquote : c ≠ '"') (hescape : c ≠ '\\')
    (hcontrol : 0x20 ≤ c.toNat) (rest : Body text cs) : Body (c :: text) (c :: cs)
  | escape {escape text cs : List Char} {d : Char} (hescape : Escape escape d)
    (rest : Body text cs) : Body ('\\' :: (escape ++ text)) (d :: cs)

theorem hexQuad?_sound {text rest : List Char} {unit : Nat}
    (h : hexQuad? text = some (unit, rest)) : ∃ quad, text = quad ++ rest ∧ Quad quad unit := by
  unfold hexQuad? at h
  split at h
  · next a b c d text =>
    split at h
    · next w x y z ha hb hc hd =>
      cases h
      exact ⟨[a, b, c, d], rfl, .digits ha hb hc hd⟩
    · cases h
  · cases h

theorem hexQuad?_complete {quad : List Char} {unit : Nat} (h : Quad quad unit)
    (rest : List Char) : hexQuad? (quad ++ rest) = some (unit, rest) := by
  cases h with
  | digits ha hb hc hd =>
    simp only [List.cons_append, List.nil_append, hexQuad?, ha, hb, hc, hd]

theorem isLowSurrogate_eq_false_of_isHighSurrogate {unit : Nat} (h : isHighSurrogate unit = true) :
    isLowSurrogate unit = false := by
  simp only [isHighSurrogate, isLowSurrogate, Bool.and_eq_true, decide_eq_true_eq,
    Bool.and_eq_false_iff, decide_eq_false_iff_not] at h ⊢
  omega

theorem unicode?_sound {text rest : List Char} {d : Char} (h : unicode? text = some (d, rest)) :
    ∃ escape, text = escape ++ rest ∧ Escape ('u' :: escape) d := by
  unfold unicode? at h
  split at h
  · cases h
  next unit after hquad =>
  obtain ⟨quad, rfl, hunit⟩ := hexQuad?_sound hquad
  split at h
  · cases h
  next hlow =>
  rw [Bool.not_eq_true] at hlow
  split at h
  · next hhigh =>
    split at h
    · next more =>
      split at h
      · next low rest' hquad' =>
        obtain ⟨quad', rfl, hlow'⟩ := hexQuad?_sound hquad'
        split at h
        · next hislow =>
          obtain ⟨rfl, rfl⟩ := Prod.mk.inj (Option.some.inj h)
          refine ⟨quad ++ '\\' :: 'u' :: quad', ?_, .pair hunit hhigh hlow' hislow⟩
          rw [List.append_assoc, List.cons_append, List.cons_append]
        · cases h
      · cases h
    · cases h
  · next hhigh =>
    rw [Bool.not_eq_true] at hhigh
    cases h
    exact ⟨quad, rfl, .unit hunit hlow hhigh⟩

theorem escaped?_sound {text rest : List Char} {d : Char} (h : escaped? text = some (d, rest)) :
    ∃ escape, text = escape ++ rest ∧ Escape escape d := by
  unfold escaped? at h
  split at h
  case h_9 =>
    obtain ⟨escape, rfl, hescape⟩ := unicode?_sound h
    exact ⟨'u' :: escape, rfl, hescape⟩
  case h_10 => cases h
  -- The other characters stand for one each.
  all_goals
    cases h
    exact ⟨[_], rfl, .short (by decide)⟩

theorem escaped?_complete {escape : List Char} {d : Char} (h : Escape escape d)
    (rest : List Char) : escaped? (escape ++ rest) = some (d, rest) := by
  cases h with
  | short h =>
    have hall : ∀ e ∈ shortEscapes, escaped? (e.1 :: rest) = some (e.2, rest) := by
      simp [shortEscapes, escaped?]
    exact hall _ h
  | unit hquad hlow hhigh =>
    rw [List.cons_append, escaped?, unicode?, hexQuad?_complete hquad]
    simp [hlow, hhigh]
  | pair hquad hhigh hquad' hlow =>
    have hlow' := isLowSurrogate_eq_false_of_isHighSurrogate hhigh
    rw [List.cons_append, List.append_assoc, List.cons_append, List.cons_append, escaped?,
      unicode?, hexQuad?_complete hquad]
    simp [hlow', hhigh, hexQuad?_complete hquad', hlow]

theorem stringAfter_sound : ∀ {bound : Nat} {taken text rest : List Char} {s : String},
    stringAfter bound taken text = some (s, rest) →
      ∃ body cs, text = body ++ '"' :: rest ∧ Body body cs ∧ s = String.ofList (taken.reverse ++ cs)
  | 0, _, _, _, _, h => nomatch h
  | _ + 1, _, [], _, _, h => nomatch h
  | bound + 1, taken, c :: text, rest, s, h => by
    rw [stringAfter] at h
    split at h
    · next hquote =>
      cases h
      exact ⟨[], [], by rw [hquote, List.nil_append], .nil, by rw [List.append_nil]⟩
    next hquote =>
    split at h
    · next hescape =>
      split at h
      · next d after hd =>
        obtain ⟨escape, rfl, hspells⟩ := escaped?_sound hd
        obtain ⟨body, cs, rfl, hbody, rfl⟩ := stringAfter_sound h
        refine ⟨'\\' :: (escape ++ body), d :: cs, ?_, .escape hspells hbody, by simp⟩
        rw [hescape, List.cons_append, List.append_assoc]
      · cases h
    next hescape =>
    split at h
    · cases h
    next hcontrol =>
    obtain ⟨body, cs, rfl, hbody, rfl⟩ := stringAfter_sound h
    exact ⟨c :: body, c :: cs, rfl, .plain hquote hescape (Nat.not_lt.mp hcontrol) hbody, by simp⟩

theorem stringAfter_complete {body cs : List Char} (h : Body body cs) (rest : List Char) :
    ∀ (bound : Nat) (taken : List Char), body.length < bound →
      stringAfter bound taken (body ++ '"' :: rest) =
        some (String.ofList (taken.reverse ++ cs), rest) := by
  induction h with
  | nil =>
    rintro (- | bound) taken hbound
    · exact absurd hbound (Nat.not_lt_zero _)
    · simp [stringAfter]
  | @plain c text cs hquote hescape hcontrol _ ih =>
    rintro (- | bound) taken hbound
    · exact absurd hbound (Nat.not_lt_zero _)
    · rw [List.cons_append, stringAfter, if_neg hquote, if_neg hescape,
        if_neg (Nat.not_lt.mpr hcontrol), ih _ _ (Nat.lt_of_succ_lt_succ hbound)]
      simp
  | @escape escape text cs d hescape _ ih =>
    rintro (- | bound) taken hbound
    · exact absurd hbound (Nat.not_lt_zero _)
    · rw [List.length_cons, List.length_append] at hbound
      rw [List.cons_append, List.append_assoc, stringAfter, if_neg (by decide), if_pos rfl,
        escaped?_complete hescape]
      dsimp only
      rw [ih _ _ (by omega)]
      simp

/-! ## Numbers -/

namespace Number

open Numeral

/-- Reading digits into the significand does not change what comes after them. -/
theorem afterDigits_takeDigits : ∀ (text : List Char) (s n : Nat),
    afterDigits (takeDigits s n text).rest = afterDigits text
  | [], _, _ => rfl
  | c :: text, s, n => by
    rw [takeDigits]
    split
    · next h =>
      have hc : c.isDigit = true := (Bool.and_eq_true_iff.mp h).1
      rw [afterDigits_takeDigits text, afterDigits, afterDigits, List.dropWhile_cons, if_pos hc]
    · rfl

theorem allDigits_digits (text : List Char) : AllDigits (digits text) :=
  fun _ hc => List.mem_takeWhile_imp hc

theorem exists_exponent {negative : Bool} {s : Nat} {x : Int} {text rest : List Char} {n : Number}
    (h : withExponent negative s x text = some (n, rest)) :
    ∃ e : Option Exponent, text = (e.map Exponent.text).getD [] ++ rest := by
  have hexplicit : ∀ (mark : Char) (text : List Char), mark = 'e' ∨ mark = 'E' →
      withExponent.explicit negative s x text = some (n, rest) →
      ∃ e : Option Exponent, mark :: text = (e.map Exponent.text).getD [] ++ rest := by
    intro mark text hmark h
    unfold withExponent.explicit at h
    dsimp only at h
    split at h
    · cases h
    next hdigits =>
    obtain ⟨_, -, hfound⟩ := Option.map_eq_some_iff.mp h
    obtain ⟨-, rfl⟩ := Prod.mk.inj hfound
    obtain ⟨sign, hsign, htext⟩ : ∃ sign, (sign = [] ∨ sign = ['+'] ∨ sign = ['-']) ∧
        text = sign ++ (splitSign text).2 := by
      rcases splitSign_eq text with heq | ⟨c, rfl | rfl, heq⟩
      · exact ⟨[], .inl rfl, heq.symm⟩
      · exact ⟨['+'], .inr (.inl rfl), heq.symm⟩
      · exact ⟨['-'], .inr (.inr rfl), heq.symm⟩
    refine ⟨some ⟨mark, sign, digits (splitSign text).2, hmark, hsign, ?_, allDigits_digits _⟩, ?_⟩
    · simpa using hdigits
    · show mark :: text = mark :: (sign ++ digits _) ++ afterDigits _
      rw [List.cons_append, List.append_assoc, digits_split, ← htext]
  unfold withExponent at h
  split at h
  · exact hexplicit 'e' _ (.inl rfl) h
  · exact hexplicit 'E' _ (.inr rfl) h
  · obtain ⟨_, -, hfound⟩ := Option.map_eq_some_iff.mp h
    obtain ⟨-, rfl⟩ := Prod.mk.inj hfound
    exact ⟨none, rfl⟩

/-- The point and the digits after it that are read, if any are, and the exponent. -/
theorem exists_fraction {negative : Bool} {s d : Nat} {text rest : List Char} {n : Number}
    (h : afterInteger negative s d text = some (n, rest)) :
    ∃ (fraction : List Char) (e : Option Exponent), AllDigits fraction ∧
      text = (if fraction = [] then [] else '.' :: fraction) ++
        ((e.map Exponent.text).getD [] ++ rest) := by
  unfold afterInteger at h
  split at h
  · next text =>
    split at h
    · cases h
    next hdigits =>
    dsimp only at h
    rw [afterDigits_takeDigits] at h
    obtain ⟨e, he⟩ := exists_exponent h
    refine ⟨digits text, e, allDigits_digits text, ?_⟩
    rw [if_neg (by simpa using hdigits), ← he, List.cons_append, digits_split]
  · obtain ⟨e, he⟩ := exists_exponent h
    exact ⟨[], e, nofun, he⟩

theorem exists_unsignedText {negative : Bool} {text rest : List Char} {n : Number}
    (h : unsigned? negative text = some (n, rest)) :
    ∃ t : NumberText, t.negative = negative ∧ text = t.unsignedText ++ rest := by
  unfold unsigned? at h
  split at h
  · cases h
  · cases h
  next hnone hzero =>
  have hnonempty : digits text ≠ [] := hnone
  have hleading : (digits text).head? = some '0' → digits text = ['0'] := by
    intro hhead
    cases hds : digits text with
    | nil => exact absurd hds hnonempty
    | cons c ds =>
      rw [hds] at hhead
      cases ds with
      | nil => rw [show c = '0' from Option.some.inj hhead]
      | cons d ds =>
        exact absurd (by rw [hds, show c = '0' from Option.some.inj hhead]) (hzero d ds)
  -- What follows the digits is read as a fraction and an exponent, or left.
  obtain ⟨fraction, e, hfraction, htail⟩ : ∃ (fraction : List Char) (e : Option Exponent),
      AllDigits fraction ∧ afterDigits text = (if fraction = [] then [] else '.' :: fraction) ++
        ((e.map Exponent.text).getD [] ++ rest) := by
    dsimp only at h
    rw [← afterDigits_takeDigits text 0 0]
    generalize takeDigits 0 0 text = taken at h ⊢
    have hsplit := digits_split taken.rest
    have hnodigit : (digits taken.rest).length = 0 → afterDigits taken.rest = taken.rest := by
      intro hlength
      rwa [List.length_eq_zero_iff.mp hlength, List.nil_append] at hsplit
    by_cases hlength : (digits taken.rest).length = 0
    · rw [hnodigit hlength]
      rw [hlength] at h
      split at h
      · exact exists_fraction h
      · exact exists_fraction h
      · exact exists_fraction h
      · obtain ⟨-, rfl⟩ := Prod.mk.inj (Option.some.inj h)
        exact ⟨[], none, nofun, rfl⟩
      · next hne _ _ _ => exact (hne rfl).elim
    · split at h
      · next hzero _ => exact absurd hzero hlength
      · next hzero _ => exact absurd hzero hlength
      · next hzero _ => exact absurd hzero hlength
      · next hzero _ _ _ => exact absurd hzero hlength
      · exact exists_fraction h
  refine ⟨⟨negative, digits text, fraction, e, hnonempty, allDigits_digits text, hfraction,
    hleading⟩, rfl, ?_⟩
  rw [NumberText.unsignedText, List.append_assoc, List.append_assoc]
  show text = digits text ++ ((if fraction = [] then [] else '.' :: fraction) ++
    ((e.map Exponent.text).getD [] ++ rest))
  rw [← htail, digits_split]

/-- What is read as a number is the text of one, if no number goes on after it. -/
theorem read?_sound {text rest : List Char} {n : Number} (h : read? text = some (n, rest))
    (hrest : EndsNumber rest) : ∃ t : NumberText, text = t.text ++ rest ∧ t.number? = some n := by
  obtain ⟨t, ht⟩ : ∃ t : NumberText, text = t.text ++ rest := by
    unfold read? at h
    split at h
    · obtain ⟨t, hnegative, ht⟩ := exists_unsignedText h
      exact ⟨t, by rw [NumberText.text, hnegative, if_pos rfl, List.cons_append, ht]⟩
    · obtain ⟨t, hnegative, ht⟩ := exists_unsignedText h
      exact ⟨t, by rw [NumberText.text, hnegative, if_neg Bool.false_ne_true, ht]⟩
  refine ⟨t, ht, ?_⟩
  rw [ht, read?_text t hrest] at h
  obtain ⟨m, hm, hfound⟩ := Option.map_eq_some_iff.mp h
  rw [hm, (Prod.mk.inj hfound).1]

end Number

/-! ## Words -/

theorem word?_sound {text rest : List Char} {v : Json} (h : word? text = some (v, rest)) :
    ∃ w, (w, v) ∈ words ∧ text = w ++ rest := by
  obtain ⟨⟨w, v'⟩, hmem, hfound⟩ := List.exists_of_findSome?_eq_some h
  obtain ⟨rest', hdrop, heq⟩ := Option.map_eq_some_iff.mp hfound
  cases heq
  exact ⟨w, hmem, Text.eq_append_of_dropPrefix? hdrop⟩

theorem word?_complete {w : List Char} {v : Json} (h : (w, v) ∈ words) (rest : List Char) :
    word? (w ++ rest) = some (v, rest) := by
  have hall : ∀ w ∈ words, word? (w.1 ++ rest) = some (w.2, rest) := by
    simp [words, word?, Text.dropPrefix?]
  exact hall _ h

end RecordFilter.Json
