import Mathlib
import RecordFilter.Json.Reader
import RecordFilter.Proofs.Decimal.ReadBack

/-!
# Strings, numbers and words before white space

No string, number or word of a JSON document ends with white space, or takes white space at its end
into account. So each of them is read off a text in the same way when white space follows the text;
this is said of a single character `c` of white space after the text.

* `Agree`: what is read with the character and what is read without it;
* `agree_stringAfter`, `Number.agree_read?`, `agree_word?`: strings, numbers and words.
-/

namespace RecordFilter.Json

/-! ## White space -/

theorem space_cases {c : Char} (hc : isSpace c = true) :
    c = ' ' ∨ c = '\t' ∨ c = '\n' ∨ c = '\r' := by
  simpa [isSpace, or_assoc] using hc

theorem forall_space {P : Char → Prop} (h : P ' ' ∧ P '\t' ∧ P '\n' ∧ P '\r') {c : Char}
    (hc : isSpace c = true) : P c := by
  rcases space_cases hc with rfl | rfl | rfl | rfl
  · exact h.1
  · exact h.2.1
  · exact h.2.2.1
  · exact h.2.2.2

/-! ## Agreement -/

section Agreement
variable {α β : Type} {c : Char} {n m : Nat} {found found' : Option (α × List Char)}

/-- Nothing is found with the character or without it, or the same thing with at most `n` characters
left after it, to which the character is added. -/
def Agree (c : Char) (n : Nat) (found found' : Option (α × List Char)) : Prop :=
  (found = none ∧ found' = none) ∨
    ∃ v rest, found = some (v, rest ++ [c]) ∧ found' = some (v, rest) ∧ rest.length ≤ n

theorem Agree.none (c : Char) (n : Nat) : Agree c n (none : Option (α × List Char)) none :=
  Or.inl ⟨rfl, rfl⟩

theorem Agree.some (v : α) {rest : List Char} (h : rest.length ≤ n) :
    Agree c n (some (v, rest ++ [c])) (some (v, rest)) := Or.inr ⟨v, rest, rfl, rfl, h⟩

theorem Agree.map (f : α → β) (h : Agree c n found found') :
    Agree c n (found.map fun (v, rest) => (f v, rest))
      (found'.map fun (v, rest) => (f v, rest)) := by
  rcases h with ⟨rfl, rfl⟩ | ⟨v, rest, rfl, rfl, hle⟩
  · exact .none c n
  · exact .some (f v) hle

theorem Agree.le (h : Agree c n found found') (hle : n ≤ m) : Agree c m found found' :=
  h.imp_right fun ⟨v, rest, hv, hv', hrest⟩ => ⟨v, rest, hv, hv', hrest.trans hle⟩

end Agreement

/-! ## Strings -/

variable {c : Char} (hc : isSpace c = true)
include hc

theorem agree_hexQuad? : ∀ text, Agree c text.length (hexQuad? (text ++ [c])) (hexQuad? text)
  | [] => .none c _
  | [_] => .none c _
  | [_, _] => .none c _
  | [x, y, z] => by
    have hdigit : hexDigit? c = none :=
      forall_space (P := fun c => hexDigit? c = none) (by decide) hc
    have hnone : hexQuad? [x, y, z, c] = none := by simp [hexQuad?, hdigit]
    exact hnone ▸ .none c _
  | x :: y :: z :: w :: rest => by
    simp only [List.cons_append, hexQuad?]
    cases hexDigit? x <;> cases hexDigit? y <;> cases hexDigit? z <;> cases hexDigit? w <;>
      first
        | exact .none c _
        | exact .some _ (by simp only [List.length_cons]; omega)

theorem agree_unicode? (text : List Char) :
    Agree c text.length (unicode? (text ++ [c])) (unicode? text) := by
  rw [unicode?, unicode?]
  rcases agree_hexQuad? hc text with ⟨h, h'⟩ | ⟨unit, rest, h, h', hle⟩
  · rw [h, h']
    exact .none c _
  rw [h, h']
  dsimp only
  split
  · exact .none c _
  split
  · split
    · next r hr =>
      obtain ⟨rest', rfl⟩ : ∃ rest', rest = '\\' :: 'u' :: rest' := by
        have hu : c ≠ 'u' := forall_space (P := (· ≠ 'u')) (by decide) hc
        rcases rest with - | ⟨x, - | ⟨y, rest⟩⟩ <;> simp_all
      obtain rfl : rest' ++ [c] = r := by simpa using hr
      rcases agree_hexQuad? hc rest' with ⟨h, h'⟩ | ⟨low, rest, h, h', hle'⟩
      · simp only [h, h']
        exact .none c _
      · simp only [h, h']
        split
        · exact .some _ (by simp only [List.length_cons] at hle; omega)
        · exact .none c _
    · next hr =>
      split
      · next r => exact absurd rfl (hr (r ++ [c]))
      · exact .none c _
  · exact .some _ hle

omit hc in
theorem escaped?_cons {x : Char} (hx : x ≠ 'u') (rest : List Char) :
    escaped? (x :: rest) = (escaped? [x]).map fun found => (found.1, rest) := by
  by_cases h : x ∈ "\"\\/bfnrt".toList
  · simp only [String.reduceToList, List.mem_cons, List.not_mem_nil, or_false] at h
    rcases h with rfl | rfl | rfl | rfl | rfl | rfl | rfl | rfl <;> rfl
  · simp only [String.reduceToList, List.mem_cons, List.not_mem_nil, or_false, not_or] at h
    simp [escaped?, h, hx]

theorem agree_escaped? : ∀ text, Agree c text.length (escaped? (text ++ [c])) (escaped? text)
  | [] => by
    have hnone : escaped? [c] = none :=
      forall_space (P := fun c => escaped? [c] = none) (by decide) hc
    exact hnone ▸ .none c _
  | x :: text => by
    by_cases hx : x = 'u'
    · subst hx
      exact (agree_unicode? hc text).le (Nat.le_succ _)
    · rw [List.cons_append, escaped?_cons hx, escaped?_cons hx text]
      cases escaped? [x] with
      | none => exact .none c _
      | some found => exact .some _ (Nat.le_succ _)

/-- A string that is read ends before the character, which no string ends with. -/
theorem agree_stringAfter : ∀ (bound bound' : Nat) (taken text : List Char), text.length < bound →
    text.length < bound' →
      Agree c text.length (stringAfter bound taken (text ++ [c])) (stringAfter bound' taken text)
  | bound + 1, bound' + 1, taken, [], _, _ => by
    have hquote : c ≠ '"' ∧ c ≠ '\\' :=
      forall_space (P := fun c => c ≠ '"' ∧ c ≠ '\\') (by decide) hc
    have hnil : ∀ taken, stringAfter bound taken [] = none := by
      intro taken
      cases bound <;> rfl
    have hnone : stringAfter (bound + 1) taken [c] = none := by
      simp [stringAfter, hquote, hnil]
    exact hnone ▸ .none c _
  | bound + 1, bound' + 1, taken, x :: text, hbound, hbound' => by
    have hbound := Nat.lt_of_succ_lt_succ hbound
    have hbound' := Nat.lt_of_succ_lt_succ hbound'
    rw [List.cons_append, stringAfter, stringAfter]
    split
    · exact .some _ (Nat.le_succ _)
    split
    · rcases agree_escaped? hc text with ⟨h, h'⟩ | ⟨d, rest, h, h', hle⟩
      · rw [h, h']
        exact .none c _
      · rw [h, h']
        exact (agree_stringAfter bound bound' (d :: taken) rest (by omega) (by omega)).le
          (hle.trans (Nat.le_succ _))
    split
    · exact .none c _
    · exact (agree_stringAfter bound bound' (x :: taken) text hbound hbound').le (Nat.le_succ _)

/-! ## Numbers -/

namespace Number

open Numeral

omit hc in
theorem isSpace_endsNumber (hc : isSpace c = true) :
    c.isDigit = false ∧ c ≠ '.' ∧ c ≠ 'e' ∧ c ≠ 'E' :=
  forall_space (P := fun c => c.isDigit = false ∧ c ≠ '.' ∧ c ≠ 'e' ∧ c ≠ 'E') (by decide) hc

theorem digits_concat (text : List Char) : digits (text ++ [c]) = digits text := by
  have hdigit := (isSpace_endsNumber hc).1
  induction text with
  | nil => simp [digits, hdigit]
  | cons x text ih =>
    simp only [digits, List.cons_append, List.takeWhile_cons] at ih ⊢
    rw [ih]

theorem afterDigits_concat (text : List Char) :
    afterDigits (text ++ [c]) = afterDigits text ++ [c] := by
  have hdigit := (isSpace_endsNumber hc).1
  rw [afterDigits, List.dropWhile_append]
  split <;> simp_all [afterDigits]

omit hc in
theorem length_afterDigits_le (text : List Char) : (afterDigits text).length ≤ text.length :=
  (List.dropWhile_suffix _).length_le

theorem splitSign_concat (text : List Char) :
    splitSign (text ++ [c]) = ((splitSign text).1, (splitSign text).2 ++ [c]) := by
  cases text with
  | nil => exact forall_space (P := fun c => splitSign [c] = (false, [c])) (by decide) hc
  | cons x text =>
    by_cases hplus : x = '+'
    · exact hplus ▸ rfl
    by_cases hminus : x = '-'
    · exact hminus ▸ rfl
    · simp [splitSign, hplus, hminus]

omit hc in
theorem length_splitSign_le (text : List Char) : (splitSign text).2.length ≤ text.length := by
  rcases splitSign_eq text with h | ⟨x, -, h⟩
  · exact (congrArg List.length h).le
  · have hlength := congrArg List.length h
    rw [List.length_cons] at hlength
    omega

theorem takeDigits_concat (text : List Char) : ∀ s n, takeDigits s n (text ++ [c]) =
    { takeDigits s n text with rest := (takeDigits s n text).rest ++ [c] } := by
  induction text with
  | nil => simp [takeDigits, (isSpace_endsNumber hc).1]
  | cons x text ih =>
    intro s n
    rw [List.cons_append, takeDigits, takeDigits]
    split
    · exact ih _ _
    · rfl

omit hc in
theorem length_takeDigits_le (text : List Char) : ∀ s n,
    (takeDigits s n text).rest.length ≤ text.length := by
  induction text with
  | nil => exact fun _ _ => Nat.le_refl _
  | cons x text ih =>
    intro s n
    rw [takeDigits]
    split
    · exact (ih _ _).trans (Nat.le_succ _)
    · exact Nat.le_refl _

theorem agree_explicit (negative : Bool) (s : Nat) (x : Int) (text : List Char) :
    Agree c text.length (withExponent.explicit negative s x (text ++ [c]))
      (withExponent.explicit negative s x text) := by
  rw [withExponent.explicit, withExponent.explicit, splitSign_concat hc]
  dsimp only
  rw [digits_concat hc, afterDigits_concat hc]
  split
  · exact .none c _
  · cases ofParts negative s _ with
    | none => exact .none c _
    | some n => exact .some n ((length_afterDigits_le _).trans (length_splitSign_le text))

theorem agree_withExponent (negative : Bool) (s : Nat) (x : Int) (text : List Char) :
    Agree c text.length (withExponent negative s x (text ++ [c]))
      (withExponent negative s x text) := by
  have hplain : ∀ text, text.head? ≠ some 'e' → text.head? ≠ some 'E' →
      withExponent negative s x text = (ofParts negative s x).map fun n => (n, text) := by
    intro text he hE
    unfold withExponent
    split
    · exact absurd rfl he
    · exact absurd rfl hE
    · rfl
  have hkept : ∀ text, Agree c text.length
      ((ofParts negative s x).map fun n => (n, text ++ [c]))
      ((ofParts negative s x).map fun n => (n, text)) := by
    intro text
    cases ofParts negative s x with
    | none => exact .none c _
    | some n => exact .some n (Nat.le_refl _)
  cases text with
  | nil =>
    have hend := isSpace_endsNumber hc
    rw [hplain _ (by simpa using hend.2.2.1) (by simpa using hend.2.2.2),
      hplain [] (by simp) (by simp)]
    exact hkept []
  | cons y text =>
    by_cases he : y = 'e'
    · subst he
      exact (agree_explicit hc negative s x text).le (Nat.le_succ _)
    by_cases hE : y = 'E'
    · subst hE
      exact (agree_explicit hc negative s x text).le (Nat.le_succ _)
    · rw [hplain _ (by simpa using he) (by simpa using hE),
        hplain _ (by simpa using he) (by simpa using hE)]
      exact hkept (y :: text)

theorem agree_afterInteger (negative : Bool) (s n : Nat) (text : List Char) :
    Agree c text.length (afterInteger negative s n (text ++ [c]))
      (afterInteger negative s n text) := by
  have hplain : ∀ text, text.head? ≠ some '.' →
      afterInteger negative s n text = withExponent negative s n text := by
    intro text hpoint
    unfold afterInteger
    split
    · exact absurd rfl hpoint
    · rfl
  cases text with
  | nil =>
    rw [hplain _ (by simpa using (isSpace_endsNumber hc).2.1), hplain [] (by simp)]
    exact agree_withExponent hc negative s n []
  | cons y text =>
    by_cases hpoint : y = '.'
    · subst hpoint
      rw [List.cons_append, afterInteger, afterInteger, digits_concat hc]
      split
      · exact .none c _
      · rw [takeDigits_concat hc]
        dsimp only
        rw [afterDigits_concat hc]
        refine (agree_withExponent hc negative _ _ _).le ?_
        exact (length_afterDigits_le _).trans
          ((length_takeDigits_le text s 0).trans (Nat.le_succ _))
    · rw [hplain _ (by simpa using hpoint), hplain _ (by simpa using hpoint)]
      exact agree_withExponent hc negative s n (y :: text)

theorem agree_unsigned? (negative : Bool) (text : List Char) :
    Agree c text.length (unsigned? negative (text ++ [c])) (unsigned? negative text) := by
  rw [unsigned?, unsigned?, digits_concat hc]
  split
  · exact .none c _
  · exact .none c _
  · rw [takeDigits_concat hc]
    dsimp only
    have hle := length_takeDigits_le text 0 0
    generalize takeDigits 0 0 text = taken at hle ⊢
    obtain ⟨significand, count, rest⟩ := taken
    rw [digits_concat hc]
    have hinteger : ∀ d, Agree c text.length (afterInteger negative significand d (rest ++ [c]))
        (afterInteger negative significand d rest) := fun d =>
      (agree_afterInteger hc negative significand d rest).le hle
    cases (digits rest).length with
    | succ dropped =>
      show Agree c text.length
        (afterInteger negative significand (dropped + 1) (afterDigits (rest ++ [c])))
        (afterInteger negative significand (dropped + 1) (afterDigits rest))
      rw [afterDigits_concat hc]
      exact (agree_afterInteger hc negative significand _ _).le
        ((length_afterDigits_le rest).trans hle)
    | zero =>
      cases rest with
      | nil => rcases space_cases hc with rfl | rfl | rfl | rfl <;> exact .some _ hle
      | cons y rest =>
        by_cases hpoint : y = '.'
        · subst hpoint
          exact hinteger 0
        by_cases he : y = 'e'
        · subst he
          exact hinteger 0
        by_cases hE : y = 'E'
        · subst hE
          exact hinteger 0
        have hplain : Agree c text.length
            (some (ofInteger negative significand, (y :: rest) ++ [c]))
            (some (ofInteger negative significand, y :: rest)) := .some _ hle
        simpa [hpoint, he, hE] using hplain

theorem agree_read? (text : List Char) :
    Agree c text.length (read? (text ++ [c])) (read? text) := by
  cases text with
  | nil =>
    have hnone : read? [c] = none := forall_space (P := fun c => read? [c] = none) (by decide) hc
    exact hnone ▸ .none c _
  | cons y text =>
    by_cases hminus : y = '-'
    · subst hminus
      exact (agree_unsigned? hc true text).le (Nat.le_succ _)
    · have hplain : ∀ text, read? (y :: text) = unsigned? false (y :: text) := by
        intro text
        unfold read?
        split
        · next h => exact absurd (List.cons.inj h).1 hminus
        · rfl
      rw [List.cons_append, hplain, hplain]
      exact agree_unsigned? hc false (y :: text)

end Number

/-! ## Words -/

omit hc in
theorem dropPrefix?_concat : ∀ {spelling : List Char} (text : List Char), c ∉ spelling →
    Text.dropPrefix? spelling (text ++ [c]) = (Text.dropPrefix? spelling text).map (· ++ [c])
  | [], _, _ => rfl
  | d :: spelling, [], h => by
    have hd : d ≠ c := fun heq => h (heq ▸ List.mem_cons_self)
    simp [Text.dropPrefix?, hd]
  | d :: spelling, x :: text, h => by
    rw [List.cons_append, Text.dropPrefix?, Text.dropPrefix?]
    split
    · exact dropPrefix?_concat text fun hmem => h (List.mem_cons_of_mem d hmem)
    · rfl

theorem agree_word? (text : List Char) :
    Agree c text.length (word? (text ++ [c])) (word? text) := by
  have hwords : ∀ w ∈ words, c ∉ w.1 :=
    forall_space (P := fun c => ∀ w ∈ words, c ∉ w.1) (by decide) hc
  have hall : ∀ ws : List (List Char × Json), (∀ w ∈ ws, c ∉ w.1) →
      Agree c text.length
        (ws.findSome? fun w => (Text.dropPrefix? w.1 (text ++ [c])).map fun rest => (w.2, rest))
        (ws.findSome? fun w => (Text.dropPrefix? w.1 text).map fun rest => (w.2, rest)) := by
    intro ws hws
    induction ws with
    | nil => exact .none c _
    | cons w ws ih =>
      obtain ⟨hw, hws⟩ := List.forall_mem_cons.mp hws
      rw [List.findSome?_cons, List.findSome?_cons, dropPrefix?_concat text hw]
      cases hdrop : Text.dropPrefix? w.1 text with
      | none => exact ih hws
      | some rest =>
        have hlength := congrArg List.length (Text.eq_append_of_dropPrefix? hdrop)
        rw [List.length_append] at hlength
        exact .some w.2 (by omega)
  exact hall words hwords

end RecordFilter.Json
