import Mathlib
import RecordFilter.Proofs.Json.SpaceAfter
import RecordFilter.Proofs.Printing.Tokens

/-!
# White space at the end of a document

A document is read off a text in the same way when white space follows the text. Loops are bounded
by the length of the text, which is not the same then, so this is said of two readers at once, the
second of which may have a smaller bound: a bound does not matter as long as it exceeds the length
of the text, because each turn of a loop takes a character off.

* `Overlooks`: a reader of the text with a character of white space, and one of the text without it;
* `agree_itemsAfter`: the items of arrays and objects;
* `parse?_concat`: white space after a document makes no difference;
* `parse?_blank`: a blank text is no document.
-/

namespace RecordFilter.Json

theorem skipSpace_concat {c : Char} (hc : isSpace c = true) (text : List Char) :
    (skipSpace text = [] ∧ skipSpace (text ++ [c]) = []) ∨
      ∃ x rest, skipSpace text = x :: rest ∧ skipSpace (text ++ [c]) = x :: (rest ++ [c]) ∧
        rest.length < text.length := by
  have hle := (List.dropWhile_suffix isSpace (l := text)).length_le
  rw [skipSpace, skipSpace, List.dropWhile_append]
  cases h : text.dropWhile isSpace with
  | nil => exact Or.inl ⟨rfl, by simp [hc]⟩
  | cons x rest =>
    rw [h, List.length_cons] at hle
    exact Or.inr ⟨x, rest, rfl, rfl, hle⟩

/-! ## Arrays and objects -/

section Items
variable {α : Type}

/-- The first reader reads the texts shorter than `n` with the character after them as the second
one reads them without, and neither finds anything in an empty text. -/
structure Overlooks (c : Char) (n : Nat) (r r' : Reader α) : Prop where
  nil : r [] = none
  nil' : r' [] = none
  agree : ∀ text, text.length < n → Agree c text.length (r (text ++ [c])) (r' text)

/-- Reads items up to a closing mark, behind those `taken` so far (the last one first). -/
def itemsAfter (close : Char) (one : Reader α) : Nat → List α → Reader (List α)
  | 0, _, _ => none
  | bound + 1, taken, text =>
    match one text with
    | none => none
    | some (v, rest) =>
      match skipSpace rest with
      | [] => none
      | x :: rest =>
        if x = ',' then itemsAfter close one bound (v :: taken) rest
        else if x = close then some ((v :: taken).reverse, rest)
        else none

theorem elementsAfter_eq (element : Reader Json) : ∀ (bound : Nat) (taken : List Json)
    (text : List Char), elementsAfter element bound taken text =
      itemsAfter ']' element bound taken text
  | 0, _, _ => rfl
  | bound + 1, taken, text => by
    rw [elementsAfter, itemsAfter]
    rcases element text with - | ⟨v, rest⟩
    · rfl
    dsimp only
    rcases skipSpace rest with - | ⟨x, rest⟩
    · rfl
    by_cases hcomma : x = ','
    · subst hcomma
      exact elementsAfter_eq element bound (v :: taken) rest
    by_cases hclose : x = ']'
    · subst hclose
      rfl
    · simp [hcomma, hclose]

theorem membersAfter_eq (one : Reader (String × Json)) : ∀ (bound : Nat)
    (taken : List (String × Json)) (text : List Char), membersAfter one bound taken text =
      itemsAfter '\x7d' one bound taken text
  | 0, _, _ => rfl
  | bound + 1, taken, text => by
    rw [membersAfter, itemsAfter]
    rcases one text with - | ⟨m, rest⟩
    · rfl
    dsimp only
    rcases skipSpace rest with - | ⟨x, rest⟩
    · rfl
    by_cases hcomma : x = ','
    · subst hcomma
      exact membersAfter_eq one bound (m :: taken) rest
    by_cases hclose : x = '\x7d'
    · subst hclose
      rfl
    · simp [hcomma, hclose]

theorem itemsAfter_nil {close : Char} {one : Reader α} (hone : one [] = none) (bound : Nat)
    (taken : List α) : itemsAfter close one bound taken [] = none := by
  cases bound with
  | zero => rfl
  | succ bound => rw [itemsAfter, hone]

/-- Reads what has items between marks, after its opening mark. -/
def enclosedAfter (close : Char) (one : Reader α) (make : List α → Json) (bound : Nat) :
    Reader Json := fun text =>
  match skipSpace text with
  | [] => none
  | x :: rest =>
    if x = close then some (make [], rest)
    else (itemsAfter close one bound [] (x :: rest)).map fun (vs, rest) => (make vs, rest)

theorem arrayAfter_eq {element : Reader Json} (helement : element [] = none) (bound : Nat)
    (text : List Char) :
    arrayAfter bound element text = enclosedAfter ']' element .array bound text := by
  rw [arrayAfter, enclosedAfter]
  rcases skipSpace text with - | ⟨x, rest⟩
  · dsimp only
    rw [elementsAfter_eq, itemsAfter_nil helement]
    rfl
  by_cases hclose : x = ']'
  · subst hclose
    rfl
  · simp [hclose, elementsAfter_eq]

theorem objectAfter_eq (element : Reader Json) (bound : Nat) (text : List Char) :
    objectAfter bound element text =
      enclosedAfter '\x7d' (member bound element) .object bound text := by
  rw [objectAfter, enclosedAfter]
  rcases skipSpace text with - | ⟨x, rest⟩
  · dsimp only
    rw [membersAfter_eq, itemsAfter_nil rfl]
    rfl
  by_cases hclose : x = '\x7d'
  · subst hclose
    rfl
  · simp [hclose, membersAfter_eq]

theorem agree_itemsAfter {c : Char} (hc : isSpace c = true) {n : Nat} {one one' : Reader α}
    (hone : Overlooks c n one one') (close : Char) : ∀ (bound bound' : Nat) (taken : List α)
    (text : List Char), text.length < bound → text.length < bound' → text.length < n →
      Agree c text.length (itemsAfter close one bound taken (text ++ [c]))
        (itemsAfter close one' bound' taken text)
  | bound + 1, bound' + 1, taken, text, hbound, hbound', hn => by
    rw [itemsAfter, itemsAfter]
    rcases hone.agree text hn with ⟨h, h'⟩ | ⟨v, rest, h, h', hle⟩
    · rw [h, h']
      exact .none c _
    rw [h, h']
    dsimp only
    rcases skipSpace_concat hc rest with ⟨h, h'⟩ | ⟨x, rest', h, h', hlt⟩
    · rw [h, h']
      exact .none c _
    rw [h, h']
    dsimp only
    split
    · exact (agree_itemsAfter hc hone close bound bound' (v :: taken) rest' (by omega) (by omega)
        (by omega)).le (by omega)
    split
    · exact .some _ (by omega)
    · exact .none c _

/-- What is enclosed between marks is read as far as the character when its items are. -/
theorem agree_enclosedAfter {c : Char} (hc : isSpace c = true) {n bound bound' : Nat}
    (hbound : n ≤ bound) (hbound' : n ≤ bound') {one one' : Reader α}
    (hone : Overlooks c n one one') (close : Char) (make : List α → Json) (text : List Char)
    (hn : text.length < n) :
    Agree c text.length (enclosedAfter close one make bound (text ++ [c]))
      (enclosedAfter close one' make bound' text) := by
  rw [enclosedAfter, enclosedAfter]
  rcases skipSpace_concat hc text with ⟨h, h'⟩ | ⟨x, rest, h, h', hlt⟩
  · rw [h, h']
    exact .none c _
  rw [h, h']
  dsimp only
  split
  · exact .some _ hlt.le
  · have hlength : (x :: rest).length ≤ text.length := hlt
    refine Agree.le (Agree.map make ?_) hlength
    exact agree_itemsAfter hc hone close bound bound' [] (x :: rest) (by omega) (by omega)
      (by omega)

end Items

/-! ## Values -/

/-- Reads a word, or else a number. -/
def wordOrNumber : Reader Json := fun text =>
  match word? text with
  | some found => some found
  | none => (Number.read? text).map fun (n, rest) => (.number n, rest)

theorem valueWith_other {x : Char} (hx : x ≠ '"' ∧ x ≠ '[' ∧ x ≠ '\x7b') {text rest : List Char}
    (htext : skipSpace text = x :: rest) (bound : Nat) (arrays objects : Reader Json) :
    valueWith bound arrays objects text = wordOrNumber (x :: rest) := by
  rw [valueWith, htext]
  split
  · next h => exact absurd (List.cons.inj h).1 hx.1
  · next h => exact absurd (List.cons.inj h).1 hx.2.1
  · next h => exact absurd (List.cons.inj h).1 hx.2.2
  · rfl

theorem member_other {x : Char} (hx : x ≠ '"') {text rest : List Char}
    (htext : skipSpace text = x :: rest) (bound : Nat) (element : Reader Json) :
    member bound element text = none := by
  rw [member, htext]
  split
  · next h => exact absurd (List.cons.inj h).1 hx
  · rfl

section Values
variable {c : Char} (hc : isSpace c = true)
include hc

theorem agree_wordOrNumber (text : List Char) :
    Agree c text.length (wordOrNumber (text ++ [c])) (wordOrNumber text) := by
  rw [wordOrNumber, wordOrNumber]
  rcases agree_word? hc text with ⟨h, h'⟩ | ⟨v, rest, h, h', hle⟩
  · rw [h, h']
    exact Agree.map Json.number (Number.agree_read? hc text)
  · rw [h, h']
    exact .some v hle

variable {n bound bound' : Nat} (hbound : n ≤ bound) (hbound' : n ≤ bound')
include hbound hbound'

/-- A value is read as far as the character when arrays and objects are. -/
theorem overlooks_valueWith {arrays arrays' objects objects' : Reader Json}
    (harrays : ∀ text, text.length < n → Agree c text.length (arrays (text ++ [c])) (arrays' text))
    (hobjects : ∀ text, text.length < n →
      Agree c text.length (objects (text ++ [c])) (objects' text)) :
    Overlooks c n (valueWith bound arrays objects) (valueWith bound' arrays' objects') where
  nil := rfl
  nil' := rfl
  agree text hn := by
    rcases skipSpace_concat hc text with ⟨h, h'⟩ | ⟨x, rest, h, h', hlt⟩
    · rw [valueWith, valueWith, h, h']
      exact .none c _
    by_cases hstring : x = '"'
    · subst hstring
      rw [valueWith, valueWith, h, h']
      refine Agree.le (Agree.map _ ?_) hlt.le
      exact agree_stringAfter hc bound bound' [] rest (by omega) (by omega)
    by_cases harray : x = '['
    · subst harray
      rw [valueWith, valueWith, h, h']
      exact (harrays rest (by omega)).le hlt.le
    by_cases hobject : x = '\x7b'
    · subst hobject
      rw [valueWith, valueWith, h, h']
      exact (hobjects rest (by omega)).le hlt.le
    · have hx := And.intro hstring (And.intro harray hobject)
      rw [valueWith_other hx h, valueWith_other hx h']
      exact (agree_wordOrNumber hc (x :: rest)).le hlt

theorem overlooks_member {element element' : Reader Json}
    (helement : Overlooks c n element element') :
    Overlooks c n (member bound element) (member bound' element') where
  nil := rfl
  nil' := rfl
  agree text hn := by
    rcases skipSpace_concat hc text with ⟨h, h'⟩ | ⟨x, rest, h, h', hlt⟩
    · rw [member, member, h, h']
      exact .none c _
    by_cases hquote : x = '"'
    · subst hquote
      rw [member, member, h, h']
      rcases agree_stringAfter hc bound bound' [] rest (by omega) (by omega) with
        ⟨h, h'⟩ | ⟨name, rest', h, h', hle⟩
      · simp only [h, h']
        exact .none c _
      simp only [h, h']
      rcases skipSpace_concat hc rest' with ⟨h, h'⟩ | ⟨y, rest'', h, h', hlt'⟩
      · rw [h, h']
        exact .none c _
      rw [h, h']
      by_cases hcolon : y = ':'
      · subst hcolon
        exact (Agree.map (fun v => (name, v)) (helement.agree rest'' (by omega))).le (by omega)
      · split
        · next heq => exact absurd (List.cons.inj heq).1 hcolon
        split
        · next heq => exact absurd (List.cons.inj heq).1 hcolon
        · exact .none c _
    · rw [member_other hquote h, member_other hquote h']
      exact .none c _

theorem overlooks_value : ∀ levels, Overlooks c n (value bound levels) (value bound' levels)
  | 0 => overlooks_valueWith hc hbound hbound' (fun _ _ => .none c _) fun _ _ => .none c _
  | levels + 1 => by
    have helement := overlooks_value levels
    refine overlooks_valueWith hc hbound hbound' (fun text hn => ?_) fun text hn => ?_
    · rw [arrayAfter_eq helement.nil, arrayAfter_eq helement.nil']
      exact agree_enclosedAfter hc hbound hbound' helement ']' .array text hn
    · rw [objectAfter_eq, objectAfter_eq]
      exact agree_enclosedAfter hc hbound hbound' (overlooks_member hc hbound hbound' helement)
        '\x7d' .object text hn

omit hbound hbound' in
/-- **White space after a document makes no difference.** -/
theorem parse?_concat (text : List Char) : parse? (text ++ [c]) = parse? text := by
  have hvalue : Overlooks c (text.length + 1) (value ((text ++ [c]).length + 1) maxNesting)
      (value (text.length + 1) maxNesting) :=
    overlooks_value hc (by simp) (Nat.le_refl _) maxNesting
  have hread := hvalue.agree text (Nat.lt_succ_self _)
  rw [parse?, parse?]
  rcases hread with ⟨h, h'⟩ | ⟨document, rest, h, h', -⟩
  · rw [h, h']
  · rw [h, h']
    rcases skipSpace_concat hc rest with ⟨h, h'⟩ | ⟨x, rest', h, h', -⟩ <;> simp [h, h']

end Values

/-! ## Blank texts -/

theorem wordOrNumber_of_isBlank {x : Char} (hx : Text.isBlank x = true) (rest : List Char) :
    wordOrNumber (x :: rest) = none := by
  have hne : ∀ d, Text.isBlank d = false → d ≠ x := by
    rintro d hd rfl
    exact Bool.noConfusion (hd.symm.trans hx)
  have hword : word? (x :: rest) = none := by
    simp [word?, words, Text.dropPrefix?, hne 'n' rfl, hne 't' rfl, hne 'f' rfl]
  have hdigit : x.isDigit = false := by
    by_contra hdigit
    have hblank := Lexeme.forall_digit (fun c => Text.isBlank c = false) (by decide)
      (Bool.not_eq_false _ ▸ hdigit)
    exact Bool.noConfusion (hblank.symm.trans hx)
  have hnumber : Number.read? (x :: rest) = none := by
    unfold Number.read?
    split
    · next h => exact absurd (List.cons.inj h).1.symm (hne '-' rfl)
    · simp [Number.unsigned?, Numeral.digits, hdigit]
  rw [wordOrNumber, hword, hnumber]
  rfl

/-- **A blank text is no document.** -/
theorem parse?_blank {text : List Char} (h : Text.isBlankText text = true) :
    parse? text = none := by
  have hvalue : ∀ bound arrays objects, valueWith bound arrays objects text = none := by
    intro bound arrays objects
    cases htext : skipSpace text with
    | nil =>
      rw [valueWith, htext]
      rfl
    | cons x rest =>
      have hmem : x ∈ skipSpace text := htext ▸ List.mem_cons_self
      have hx := List.all_eq_true.mp h x ((List.dropWhile_suffix isSpace).subset hmem)
      have hother : x ≠ '"' ∧ x ≠ '[' ∧ x ≠ '\x7b' := by
        refine ⟨?_, ?_, ?_⟩ <;> rintro rfl <;> cases hx
      rw [valueWith_other hother htext, wordOrNumber_of_isBlank hx]
  rw [parse?, maxNesting, value_succ, hvalue]

end RecordFilter.Json
