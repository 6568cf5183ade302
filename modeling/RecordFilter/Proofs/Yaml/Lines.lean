import RecordFilter.Proofs.Yaml.Scalars

/-!
# The lines of a flat text

A flat text is made of lines. A line is blank, or it is an entry: a key, a colon and perhaps a
value, all on the one line. Spaces and a comment may stand behind either.

* `Line`, `Line.text`: the lines and the text that they make;
* `over_text`: from the beginning of a line to the entry that follows, nothing but what lies between
  tokens is passed.
-/

namespace RecordFilter.Yaml

open Cursor (Over AtToken over_spaces)

/-! ## Spelling -/

/-- What may stand behind the content of a line. -/
structure Trailer where
  spaces : Nat
  comment : Option (List Char)

namespace Trailer

/-- The characters of a comment. -/
def commentChars : Option (List Char) → List Char
  | none => []
  | some cs => '#' :: cs

/-- The characters that are written. -/
def chars (t : Trailer) : List Char := List.replicate t.spaces ' ' ++ commentChars t.comment

/-- A comment stays on its line. -/
def isValid (t : Trailer) : Bool := t.comment.all fun cs => !cs.contains '\n'

/-- Something may stand before the trailer on its line. -/
def isApart (t : Trailer) : Bool := t.comment.isNone || t.spaces != 0

end Trailer

/-- **A line of a flat text.** Before its value one space stands, and perhaps more. -/
inductive Line where
  | blank (trailer : Trailer)
  | entry (key : Written) (value : Option (Nat × Written)) (trailer : Trailer)

namespace Line

/-- The characters of the value of an entry. -/
def valueChars : Option (Nat × Written) → List Char
  | none => []
  | some (spaces, w) => List.replicate (spaces + 1) ' ' ++ w.chars

/-- The characters that are written. -/
def chars : Line → List Char
  | .blank trailer => trailer.chars
  | .entry key value trailer => key.chars ++ ':' :: (valueChars value ++ trailer.chars)

/-- The line has no entry. -/
def isBlank : Line → Bool
  | .blank _ => true
  | .entry _ _ _ => false

/-- The longest that a key may be. -/
def maxKey : Nat := 1024

/-- **The line is written as one.** -/
def isValid : Line → Bool
  | .blank trailer => trailer.isValid
  | .entry key value trailer =>
    key.isValid && key.chars.length ≤ maxKey && !documentMarkNext key.chars &&
      value.all (fun v => v.2.isValid) && trailer.isValid && trailer.isApart

/-- The text that the lines make. -/
def text : List Line → List Char
  | [] => []
  | [x] => x.chars
  | x :: y :: rest => x.chars ++ '\n' :: text (y :: rest)

/-- The text that follows a line. -/
def more : List Line → List Char
  | [] => []
  | x :: rest => '\n' :: text (x :: rest)

theorem text_cons (x : Line) (rest : List Line) : text (x :: rest) = x.chars ++ more rest := by
  cases rest <;> simp [text, more]

theorem lineEnds_more (rest : List Line) : lineEnds (more rest) = true := by
  cases rest <;> rfl

/-- The lines from the first entry on. -/
def fromEntry (lines : List Line) : List Line := lines.dropWhile isBlank

end Line

/-! ## The way to the next entry -/

theorem takeWhile_spaces {n : Nat} {rest : List Char} (h : gapNext rest = false) :
    (List.replicate n ' ' ++ rest).takeWhile isGap = List.replicate n ' ' := by
  have hgap : ∀ d ∈ List.replicate n ' ', isGap d = true := fun d hd => by
    rw [List.eq_of_mem_replicate hd]
    rfl
  rw [List.takeWhile_append_of_pos hgap]
  cases rest with
  | nil => simp
  | cons d rest => simp [show isGap d = false from h]

theorem takeWhile_line {cs rest : List Char} (hcs : '\n' ∉ cs) (hrest : lineEnds rest = true) :
    (cs ++ rest).takeWhile (· != '\n') = cs := by
  have hline : ∀ d ∈ cs, (d != '\n') = true := fun d hd => bne_iff_ne.mpr fun h => hcs (h ▸ hd)
  rw [List.takeWhile_append_of_pos hline]
  cases rest with
  | nil => simp
  | cons d rest => simp_all [lineEnds]

theorem gapNext_of_lineEnds {rest : List Char} (h : lineEnds rest = true) :
    gapNext rest = false := by
  cases rest with
  | nil => rfl
  | cons d rest =>
    obtain rfl : d = '\n' := by simpa [lineEnds] using h
    rfl

theorem over_trailer {t : Trailer} {c : Cursor} {rest : List Char} (ht : t.isValid = true)
    (hc : c.rest = t.chars ++ rest) (hrest : lineEnds rest = true) :
    ∃ d, Over c d ∧ d.rest = rest ∧ (c.fresh = false → d.fresh = false) ∧
      (t.isApart = true → c.overTrailer? = some d ∧ d.line = c.line) := by
  rw [Trailer.chars, List.append_assoc] at hc
  have hgap : gapNext (Trailer.commentChars t.comment ++ rest) = false := by
    cases t.comment with
    | none => exact gapNext_of_lineEnds hrest
    | some cs => rfl
  have hover : Over c c.overGaps := by
    rw [Cursor.overGaps, hc, takeWhile_spaces hgap, List.length_replicate]
    exact over_spaces hc
  have hgaps : c.overGaps.rest = Trailer.commentChars t.comment ++ rest := by
    simp [Cursor.overGaps, Cursor.skipGaps, Cursor.skip, hc, takeWhile_spaces hgap]
  cases hcomment : t.comment with
  | none =>
    rw [hcomment, Trailer.commentChars, List.nil_append] at hgaps
    refine ⟨_, hover, hgaps, fun hf => hf, fun _ => ⟨?_, rfl⟩⟩
    rw [Cursor.overTrailer?, hgaps]
    split
    · cases hrest
    · rfl
  | some cs =>
    rw [hcomment, Trailer.commentChars, List.cons_append] at hgaps
    have hline : c.overGaps.rest.takeWhile (· != '\n') = '#' :: cs := by
      rw [hgaps, ← List.cons_append]
      refine takeWhile_line ?_ hrest
      simpa [Trailer.isValid, hcomment] using ht
    refine ⟨c.overGaps.toLineEnd, hover.trans (.comment hgaps (.refl _)), ?_, fun hf => ?_,
      fun happart => ⟨?_, rfl⟩⟩
    · rw [Cursor.toLineEnd, hline]
      exact Cursor.skip_rest _ (by simpa using hgaps)
    · rw [Cursor.toLineEnd, hline]
      exact Cursor.skip_fresh _ (by simp)
    · have hspaces : gapNext c.rest = true := by
        have : t.spaces ≠ 0 := by simpa [Trailer.isApart, hcomment] using happart
        obtain ⟨n, hn⟩ := Nat.exists_eq_succ_of_ne_zero this
        rw [hc, hn]
        rfl
      rw [Cursor.overTrailer?, hgaps]
      simp [hspaces]

theorem Written.exists_head {w : Written} (h : w.isValid = true) :
    ∃ d rest, w.chars = d :: rest ∧ d ≠ ' ' ∧ d ≠ '\t' ∧ d ≠ '\n' ∧ d ≠ '#' := by
  cases w with
  | plain word more =>
    obtain ⟨⟨hw, hb⟩, -⟩ :
        (isWord word = true ∧ beginsPlain word = true) ∧ more.all follows = true := by
      simpa [isValid] using h
    obtain ⟨d, word, rfl⟩ := List.exists_cons_of_ne_nil (isWord_iff.mp hw).1
    have hd := (isWord_iff.mp hw).2.1 d (by simp)
    refine ⟨d, word ++ joined more, rfl, ?_, ?_, hd.2, ?_⟩ <;> rintro rfl
    · simp [isGap] at hd
    · simp [isGap] at hd
    · simp [beginsPlain, isIndicator] at hb
  | quoted mark pieces =>
    have hm : mark = '\'' ∨ mark = '"' := by
      simp only [isValid, Bool.and_eq_true, Bool.or_eq_true, beq_iff_eq] at h
      exact h.1
    refine ⟨mark, _, rfl, ?_⟩
    rcases hm with rfl | rfl <;> decide

/-- **From the beginning of a line to the entry that follows** nothing but what lies between tokens
is passed. -/
theorem over_text {lines : List Line} (hv : ∀ x ∈ lines, x.isValid = true) {c : Cursor}
    (hc : c.rest = Line.text lines) (hcol : c.column = 0) (hf : c.fresh = true) :
    ∃ d, Over c d ∧ d.AtToken ∧ d.rest = Line.text (Line.fromEntry lines) ∧
      (d.rest ≠ [] → d.column = 0 ∧ d.fresh = true) := by
  induction lines generalizing c with
  | nil => exact ⟨c, .refl c, by simp [AtToken, hc, Line.text], hc, fun _ => ⟨hcol, hf⟩⟩
  | cons x rest ih =>
    obtain ⟨hx, hrest⟩ := List.forall_mem_cons.mp hv
    cases x with
    | entry key value trailer =>
      refine ⟨c, .refl c, ?_, hc, fun _ => ⟨hcol, hf⟩⟩
      simp only [Line.isValid, Bool.and_eq_true] at hx
      obtain ⟨d, cs, hd, hne⟩ := Written.exists_head hx.1.1.1.1.1
      rw [Line.text_cons, Line.chars, hd] at hc
      simpa [AtToken, hc] using hne
    | blank trailer =>
      rw [Line.text_cons] at hc
      obtain ⟨d, hd, hdr, -⟩ := over_trailer (t := trailer) hx hc (Line.lineEnds_more rest)
      cases rest with
      | nil =>
        exact ⟨d, hd, by simp [AtToken, hdr, Line.more], hdr, fun hne => absurd hdr hne⟩
      | cons y ys =>
        obtain ⟨e, he, hat⟩ := ih hrest (c := d.afterBreak)
          (by simp [Cursor.afterBreak, hdr, Line.more]) rfl rfl
        exact ⟨e, hd.trans (.lineBreak hdr he), hat⟩

theorem over_more {lines : List Line} (hv : ∀ x ∈ lines, x.isValid = true) {c : Cursor}
    (hc : c.rest = Line.more lines) :
    ∃ d, Over c d ∧ d.AtToken ∧ d.rest = Line.text (Line.fromEntry lines) ∧
      (d.rest ≠ [] → d.column = 0 ∧ d.fresh = true) := by
  cases lines with
  | nil => exact ⟨c, .refl c, by simp [AtToken, hc, Line.more], hc, fun hne => absurd hc hne⟩
  | cons x rest =>
    obtain ⟨d, hd, hat⟩ := over_text hv (c := c.afterBreak)
      (by simp [Cursor.afterBreak, hc, Line.more]) rfl rfl
    exact ⟨d, .lineBreak hc hd, hat⟩

end RecordFilter.Yaml
