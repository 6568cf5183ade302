/-!
# Blank characters

White space is what separates the words of an expression, and a line of nothing else is a blank
line. The class is the `White_Space` property of Unicode, twenty-five characters in all; the zero
width space, the word joiner and the byte order mark are not in it.

* `isBlank_trimLeft`: what is left after skipping blanks does not begin with one.
-/

namespace RecordFilter.Text

/-- The character is white space. -/
def isBlank (c : Char) : Bool :=
  let n := c.toNat
  (0x09 ≤ n && n ≤ 0x0D) || n == 0x20 || n == 0x85 || n == 0xA0 || n == 0x1680 ||
    (0x2000 ≤ n && n ≤ 0x200A) || n == 0x2028 || n == 0x2029 || n == 0x202F || n == 0x205F ||
    n == 0x3000

/-- The text without the blanks it begins with. -/
def trimLeft (text : List Char) : List Char := text.dropWhile isBlank

/-- The text without the blanks it begins and ends with. -/
def trim (text : List Char) : List Char := (trimLeft (trimLeft text).reverse).reverse

/-- The text holds nothing but blanks. -/
def isBlankText (text : List Char) : Bool := text.all isBlank

theorem isBlank_trimLeft {text rest : List Char} {c : Char} (h : trimLeft text = c :: rest) :
    isBlank c = false := by
  induction text with
  | nil => simp [trimLeft] at h
  | cons d ds ih =>
    by_cases hd : isBlank d = true
    · exact ih (by simpa [trimLeft, hd] using h)
    · have : d = c := by simp [trimLeft, hd] at h; exact h.1
      simpa [this] using hd

theorem trimLeft_eq_nil_iff (text : List Char) : trimLeft text = [] ↔ isBlankText text = true := by
  induction text with
  | nil => exact iff_of_true rfl rfl
  | cons d ds ih =>
    unfold trimLeft isBlankText at ih ⊢
    rw [List.dropWhile_cons, List.all_cons]
    by_cases hd : isBlank d = true
    · rw [if_pos hd, hd, Bool.true_and]
      exact ih
    · rw [if_neg hd, Bool.eq_false_iff.mpr hd, Bool.false_and]
      exact iff_of_false (List.cons_ne_nil _ _) Bool.false_ne_true

theorem trimLeft_isSuffix (text : List Char) : trimLeft text <:+ text :=
  List.dropWhile_suffix isBlank

/-! ## Byte lengths -/

/-- The number of bytes that the text takes in UTF-8. -/
def byteLength (text : List Char) : Nat := text.foldl (fun n c => n + c.utf8Size) 0

theorem foldl_utf8Size (text : List Char) (n : Nat) :
    text.foldl (fun n c => n + c.utf8Size) n = n + byteLength text := by
  induction text generalizing n with
  | nil => rfl
  | cons c cs ih =>
    unfold byteLength
    rw [List.foldl_cons, List.foldl_cons, ih, ih, Nat.zero_add, Nat.add_assoc]

theorem byteLength_cons (c : Char) (text : List Char) :
    byteLength (c :: text) = c.utf8Size + byteLength text := by
  rw [byteLength, List.foldl_cons, foldl_utf8Size, Nat.zero_add]

theorem byteLength_append (a b : List Char) :
    byteLength (a ++ b) = byteLength a + byteLength b := by
  unfold byteLength
  rw [List.foldl_append, foldl_utf8Size]
  rfl

theorem byteLength_pos (c : Char) (text : List Char) : 0 < byteLength (c :: text) := by
  rw [byteLength_cons]
  exact Nat.add_pos_left c.utf8Size_pos _

end RecordFilter.Text
