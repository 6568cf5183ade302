import RecordFilter.Yaml.Layout

/-!
# Moving over what is between tokens

Between two tokens stand spaces, line breaks and comments. Whoever reads them, be it the scanner on
its way to the next token or a plain scalar that looks for its next line, moves over them in the
same steps, and so meets the same token in the end.

* `Cursor.Over`: from one cursor to another there are only spaces, breaks and comments;
* `toToken?_of_over`: the scanner stops at the token;
* `plainSpace_of_over`: a plain scalar looks as far as the token, or the comment before it.
-/

namespace RecordFilter.Yaml

namespace Cursor

/-! ## Moving within a line -/

theorem skip_zero (c : Cursor) : c.skip 0 = c := by simp [skip]

theorem skip_skip (c : Cursor) (m n : Nat) : (c.skip m).skip n = c.skip (m + n) := by
  have hzero : (c.fresh && m == 0 && n == 0) = (c.fresh && m + n == 0) := by
    cases c.fresh <;> cases m <;> cases n <;> simp
  simp [skip, Nat.add_assoc, hzero]

theorem skip_rest (c : Cursor) {cs rest : List Char} (h : c.rest = cs ++ rest) :
    (c.skip cs.length).rest = rest := by
  simp [skip, h]

theorem skip_fresh (c : Cursor) {n : Nat} (h : n ≠ 0) : (c.skip n).fresh = false := by
  simp [skip, h]

theorem afterGap_eq_skip {c : Cursor} (h : c.fresh = false) : c.afterGap = c.skip 1 := by
  simp [afterGap, skip, h, List.drop_one]

/-! ## Between tokens -/

/-- **Only spaces, line breaks and comments lie between the cursors.** -/
inductive Over : Cursor → Cursor → Prop
  | refl (c : Cursor) : Over c c
  | gap {c d : Cursor} {rest : List Char} (h : c.rest = ' ' :: rest) (hd : Over c.afterGap d) :
      Over c d
  | lineBreak {c d : Cursor} {rest : List Char} (h : c.rest = '\n' :: rest)
      (hd : Over c.afterBreak d) : Over c d
  | comment {c d : Cursor} {rest : List Char} (h : c.rest = '#' :: rest)
      (hd : Over c.toLineEnd d) : Over c d

/-- The cursor is at a token, or at the end of the text. -/
def AtToken (c : Cursor) : Prop :=
  ∀ d ∈ c.rest.head?, d ≠ ' ' ∧ d ≠ '\t' ∧ d ≠ '\n' ∧ d ≠ '#'

theorem AtToken.of_cons {c : Cursor} (h : c.AtToken) {d : Char} {rest : List Char}
    (hc : c.rest = d :: rest) : d ≠ ' ' ∧ d ≠ '\t' ∧ d ≠ '\n' ∧ d ≠ '#' :=
  h d (by simp [hc])

theorem Over.trans {c d e : Cursor} (hcd : Over c d) (hde : Over d e) : Over c e := by
  induction hcd with
  | refl => exact hde
  | gap h _ ih => exact .gap h (ih hde)
  | lineBreak h _ ih => exact .lineBreak h (ih hde)
  | comment h _ ih => exact .comment h (ih hde)

theorem Over.line_le {c d : Cursor} (h : Over c d) : c.line ≤ d.line := by
  induction h with
  | refl => exact Nat.le_refl _
  | gap _ _ ih => exact ih
  | lineBreak _ _ ih => exact Nat.le_of_succ_le ih
  | comment _ _ ih => exact ih

theorem over_spaces {c : Cursor} {n : Nat} {rest : List Char}
    (h : c.rest = List.replicate n ' ' ++ rest) : Over c (c.skipGaps n) := by
  induction n generalizing c with
  | zero => simpa [skipGaps, skip] using Over.refl c
  | succ n ih =>
    rw [List.replicate_succ, List.cons_append] at h
    have hn : c.afterGap.skipGaps n = c.skipGaps (n + 1) := by
      simp [skipGaps, skip, afterGap, Nat.add_comm n 1, Nat.add_assoc]
    exact .gap h (hn ▸ ih (by simp [afterGap, h]))

end Cursor

open Cursor (Over AtToken)

/-- **On the way to the next token** a scanner outside of flow collections moves over all that lies
between. If a key was allowed at the beginning of a line, it is at the token; on the same line
nothing changes. -/
theorem Layout.toToken?_of_over {c : Cursor} {l : Layout} {bound : Nat} (h : Over l.cursor c)
    (hc : c.AtToken) (hflow : l.inFlow = false) (hb : l.cursor.rest.length < bound) :
    ∃ allowed, l.toToken? bound = some ((l.moved c).allowKey allowed) ∧
      ((l.cursor.fresh = true → l.keyAllowed = true) → c.fresh = true → allowed = true) ∧
      (c.line = l.cursor.line → allowed = l.keyAllowed) := by
  generalize hl : l.cursor = b at h hb
  induction h generalizing l bound with
  | refl b =>
    subst hl
    obtain ⟨bound, rfl⟩ := Nat.exists_eq_succ_of_ne_zero (Nat.ne_zero_of_lt hb)
    refine ⟨l.keyAllowed, ?_, fun hready => hready, fun _ => rfl⟩
    simp only [toToken?]
    split
    · exact absurd rfl (hc.of_cons ‹_›).2.1
    · exact absurd rfl (hc.of_cons ‹_›).1
    · exact absurd rfl (hc.of_cons ‹_›).2.2.1
    · exact absurd rfl (hc.of_cons ‹_›).2.2.2
    · rfl
  | gap h _ ih =>
    subst hl
    obtain ⟨bound, rfl⟩ := Nat.exists_eq_succ_of_ne_zero (Nat.ne_zero_of_lt hb)
    have hlen : l.cursor.afterGap.rest.length < bound := by simp_all [Cursor.afterGap]
    obtain ⟨allowed, hr, ha, hline⟩ := ih (l := l.moved l.cursor.afterGap) hc hflow rfl hlen
    refine ⟨allowed, ?_, ha, hline⟩
    rw [toToken?, h]
    exact hr
  | lineBreak h hd ih =>
    subst hl
    obtain ⟨bound, rfl⟩ := Nat.exists_eq_succ_of_ne_zero (Nat.ne_zero_of_lt hb)
    have hbelow : l.cursor.line + 1 ≤ _ := hd.line_le
    have hlen : l.cursor.afterBreak.rest.length < bound := by simp_all [Cursor.afterBreak]
    obtain ⟨allowed, hr, ha, -⟩ := ih (l := (l.moved l.cursor.afterBreak).allowKey true) hc hflow
      rfl hlen
    refine ⟨allowed, ?_, fun _ => ha fun _ => rfl, fun hline => by omega⟩
    rw [toToken?, h, hflow]
    exact hr
  | comment h _ ih =>
    subst hl
    obtain ⟨bound, rfl⟩ := Nat.exists_eq_succ_of_ne_zero (Nat.ne_zero_of_lt hb)
    have hn : (l.cursor.rest.takeWhile (· != '\n')).length ≠ 0 := by simp [h]
    have hne : l.cursor.rest.length ≠ 0 := by simp [h]
    have hlen : l.cursor.toLineEnd.rest.length < bound := by
      simp only [Cursor.toLineEnd, Cursor.skip, List.length_drop]
      omega
    obtain ⟨allowed, hr, ha, hline⟩ := ih (l := l.moved l.cursor.toLineEnd) hc hflow rfl hlen
    refine ⟨allowed, ?_, fun _ => ha fun hf => ?_, hline⟩
    · rw [toToken?, h]
      exact hr
    · have := l.cursor.skip_fresh hn
      exact absurd (hf.symm.trans this) (by decide)

/-- A plain scalar that looks for its next line stops at the token or at the comment before it. -/
theorem plainSpace_of_over (indent : Int) {b c : Cursor} {bound : Nat} {s : Space} (h : Over b c)
    (hc : c.AtToken) (hb : b.rest.length < bound) :
    ∃ t d, plainSpace indent bound s b = some (t, d) ∧ Over d c ∧
      (d = c ∨ d.rest.head? = some '#') := by
  induction h generalizing s bound with
  | refl b =>
    obtain ⟨bound, rfl⟩ := Nat.exists_eq_succ_of_ne_zero (Nat.ne_zero_of_lt hb)
    refine ⟨s, b, ?_, .refl b, .inl rfl⟩
    simp only [plainSpace]
    split
    · exact absurd rfl (hc.of_cons ‹_›).1
    · exact absurd rfl (hc.of_cons ‹_›).2.1
    · exact absurd rfl (hc.of_cons ‹_›).2.2.1
    · rfl
  | @gap b c rest h _ ih =>
    obtain ⟨bound, rfl⟩ := Nat.exists_eq_succ_of_ne_zero (Nat.ne_zero_of_lt hb)
    have hlen : b.afterGap.rest.length < bound := by simp_all [Cursor.afterGap]
    obtain ⟨t, d, hr, hd⟩ := ih (s := s.gap ' ') hc hlen
    refine ⟨t, d, ?_, hd⟩
    rw [plainSpace, h]
    exact hr
  | @lineBreak b c rest h _ ih =>
    obtain ⟨bound, rfl⟩ := Nat.exists_eq_succ_of_ne_zero (Nat.ne_zero_of_lt hb)
    have hlen : b.afterBreak.rest.length < bound := by simp_all [Cursor.afterBreak]
    obtain ⟨t, d, hr, hd⟩ := ih (s := s.lineBreak) hc hlen
    refine ⟨t, d, ?_, hd⟩
    rw [plainSpace, h]
    exact hr
  | comment h hd =>
    obtain ⟨bound, rfl⟩ := Nat.exists_eq_succ_of_ne_zero (Nat.ne_zero_of_lt hb)
    refine ⟨s, _, ?_, .comment h hd, .inr (by simp [h])⟩
    rw [plainSpace, h]
    rfl

end RecordFilter.Yaml
