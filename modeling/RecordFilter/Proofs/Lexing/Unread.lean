import Mathlib
import RecordFilter.Proofs.Lexing.Sequence

/-!
# What a tokenizer has not read yet

Wherever a tokenizer stands, the tokens that it will hand out before the end are those of the text
after it, or none once it has met a stray character. Each call of `nextToken` takes the first of
them, and answers with the end when there are none.

* `nextToken_cases`: all that a call of `nextToken` can do;
* `unread_skip`: what is unread after a number of tokens;
* `collect_of_not_finished`: what the iterator hands out from any place on.
-/

namespace RecordFilter

theorem Lexeme.readAll_nil (ignoreCase awaitsLiteral : Bool) :
    readAll ignoreCase awaitsLiteral [] = ([], []) := readAll_blank rfl

namespace Tokenizer

/-- The tokens still to be handed out before the end. -/
def unread (t : Tokenizer) : List Token :=
  if t.stray.isSome then [] else (Lexeme.readAll t.ignoreCase t.awaitsLiteral t.rest).1

/-- The stray character that will have been found at the end, if there is one. -/
def lastStray (t : Tokenizer) : Option StrayChar :=
  if t.stray.isSome then t.stray
  else StrayChar.at t.source (Lexeme.readAll t.ignoreCase t.awaitsLiteral t.rest).2

/-! ## One token -/

/-- **All that a call of `nextToken` can do**: it answers with the end when nothing is unread, and
else with the first unread token. -/
theorem nextToken_cases (t : Tokenizer) :
    (t.unread = [] ∧ t.nextToken = (.endOfInput, { t with rest := [], stray := t.lastStray })) ∨
      ∃ token rest, t.stray = none ∧ token ≠ .endOfInput ∧ rest <:+ t.rest ∧
        t.nextToken = (token, t.after token rest) ∧
        t.unread = token :: (t.after token rest).unread ∧
        (t.after token rest).lastStray = t.lastStray := by
  obtain ⟨source, ignoreCase, text, awaitsLiteral, stray, finished⟩ := t
  cases stray with
  | some s => exact .inl ⟨rfl, rfl⟩
  | none =>
    cases ht : Text.trimLeft text with
    | nil =>
      refine .inl ⟨?_, ?_⟩
      · simp [unread, Lexeme.readAll_blank ht]
      · simp [nextToken, ht, atEnd, lastStray, Lexeme.readAll_blank ht, StrayChar.at]
    | cons c cs =>
      cases hr : Lexeme.read? (c :: cs) with
      | none =>
        refine .inl ⟨?_, ?_⟩
        · simp [unread, Lexeme.readAll_stray ht hr]
        · simp [nextToken, ht, hr, stoppedAt, atEnd, lastStray, Lexeme.readAll_stray ht hr,
            StrayChar.at]
      | some found =>
        obtain ⟨l, rest⟩ := found
        have hsuffix : rest <:+ text :=
          (ht ▸ Lexeme.isSuffix_of_read? hr).trans (Text.trimLeft_isSuffix text)
        refine .inr ⟨l.toToken ignoreCase awaitsLiteral, rest, rfl,
          Lexeme.toToken_ne_endOfInput hr _ _, hsuffix, ?_, ?_, ?_⟩
        · simp [nextToken, ht, hr]
        · simp [unread, after, Lexeme.readAll_lexeme ht hr]
        · simp [lastStray, after, Lexeme.readAll_lexeme ht hr]

theorem nextToken_of_unread_nil {t : Tokenizer} (h : t.unread = []) :
    t.nextToken = (.endOfInput, { t with rest := [], stray := t.lastStray }) := by
  rcases nextToken_cases t with ⟨-, hnext⟩ | ⟨token, rest, -, -, -, -, hunread, -⟩
  · exact hnext
  · rw [h] at hunread
    cases hunread

theorem token_nextToken (t : Tokenizer) : t.nextToken.1 = t.unread.headD .endOfInput := by
  rcases nextToken_cases t with ⟨hunread, hnext⟩ | ⟨token, rest, -, -, -, hnext, hunread, -⟩
  · rw [hnext, hunread]
    rfl
  · rw [hnext, hunread]
    rfl

theorem lastStray_nextToken (t : Tokenizer) : t.nextToken.2.lastStray = t.lastStray := by
  rcases nextToken_cases t with ⟨-, hnext⟩ | ⟨token, rest, -, -, -, hnext, -, hstray⟩
  · rw [hnext]
    cases h : t.lastStray <;>
      simp [lastStray, Lexeme.readAll_nil, StrayChar.at]
  · rw [hnext]
    exact hstray

theorem unread_nextToken (t : Tokenizer) : t.nextToken.2.unread = t.unread.tail := by
  rcases nextToken_cases t with ⟨hunread, hnext⟩ | ⟨token, rest, -, -, -, hnext, hunread, -⟩
  · rw [hnext, hunread]
    simp [unread, Lexeme.readAll_nil]
  · rw [hnext, hunread]
    rfl

theorem cursor_le_nextToken (t : Tokenizer) : t.cursor ≤ t.nextToken.2.cursor := by
  have hcursor : ∀ rest, rest <:+ t.rest →
      t.cursor ≤ Text.byteLength t.source - Text.byteLength rest := by
    rintro rest ⟨read, hread⟩
    rw [cursor, ← hread, Text.byteLength_append]
    omega
  rcases nextToken_cases t with ⟨-, hnext⟩ | ⟨token, rest, -, -, hsuffix, hnext, -, -⟩
  · rw [hnext]
    exact hcursor [] List.nil_suffix
  · rw [hnext]
    exact hcursor rest hsuffix

theorem stray_nextToken {t : Tokenizer} {s : StrayChar} (h : t.stray = some s) :
    t.nextToken.2.stray = some s := by
  simp [nextToken, h, atEnd]

theorem reset_nextToken (t : Tokenizer) : t.nextToken.2.reset = t.reset := by
  rcases nextToken_cases t with ⟨-, hnext⟩ | ⟨token, rest, -, -, -, hnext, -, -⟩ <;>
    rw [hnext] <;> rfl

/-- `nextToken` has no regard to what `next` has handed out. -/
theorem nextToken_finished (t : Tokenizer) (finished : Bool) :
    { t with finished := finished }.nextToken =
      (t.nextToken.1, { t.nextToken.2 with finished := finished }) := by
  unfold nextToken
  dsimp only
  split
  · rfl
  · split
    · rfl
    · split <;> rfl

/-! ## A number of tokens -/

/-- The tokenizer after a number of tokens. -/
def skip (t : Tokenizer) : Nat → Tokenizer
  | 0 => t
  | k + 1 => (t.skip k).nextToken.2

theorem unread_skip (t : Tokenizer) (k : Nat) : (t.skip k).unread = t.unread.drop k := by
  induction k with
  | zero => rfl
  | succ k ih => rw [skip, unread_nextToken, ih, List.tail_drop]

theorem lastStray_skip (t : Tokenizer) (k : Nat) : (t.skip k).lastStray = t.lastStray := by
  induction k with
  | zero => rfl
  | succ k ih => rw [skip, lastStray_nextToken, ih]

theorem reset_skip (t : Tokenizer) (k : Nat) : (t.skip k).reset = t.reset := by
  induction k with
  | zero => rfl
  | succ k ih => rw [skip, reset_nextToken, ih]

theorem monotone_cursor_skip (t : Tokenizer) : Monotone fun k => (t.skip k).cursor :=
  monotone_nat_of_le_succ fun k => cursor_le_nextToken (t.skip k)

theorem stray_skip_of_le {t : Tokenizer} {k l : Nat} (hle : k ≤ l) {s : StrayChar}
    (h : (t.skip k).stray = some s) : (t.skip l).stray = some s := by
  induction hle with
  | refl => exact h
  | step _ ih => exact stray_nextToken ih

theorem token_skip (t : Tokenizer) (k : Nat) :
    (t.skip k).nextToken.1 = (t.unread.drop k).headD .endOfInput := by
  rw [token_nextToken, unread_skip]

/-- Once the end has been handed out, the stray character has been found. -/
theorem stray_skip {t : Tokenizer} {k : Nat} (h : t.unread.length < k) :
    (t.skip k).stray = t.lastStray := by
  obtain ⟨k, rfl⟩ := Nat.exists_eq_add_of_lt h
  have hunread : (t.skip (t.unread.length + k)).unread = [] := by
    rw [unread_skip]
    exact List.drop_eq_nil_of_le (Nat.le_add_right _ _)
  rw [skip, nextToken_of_unread_nil hunread]
  exact lastStray_skip t _

/-! ## All tokens -/

theorem next_of_finished {t : Tokenizer} (h : t.finished = true) : t.next = (none, t) := by
  rw [next, if_pos h]

theorem collect_of_finished {t : Tokenizer} (h : t.finished = true) : t.collect = ([], t) :=
  take_finished h [] _

/-- **What the iterator hands out from any place on**, as long as it has not come to the end: the
unread tokens, and the end after them. -/
theorem collect_of_not_finished {t : Tokenizer} (h : t.finished = false) :
    t.collect.1 = t.unread ++ [.endOfInput] ∧ t.collect.2.stray = t.lastStray := by
  obtain ⟨source, ignoreCase, text, awaitsLiteral, stray, finished⟩ := t
  obtain rfl : finished = false := h
  cases stray with
  | none => exact take_eq source ignoreCase awaitsLiteral text _ [] (Nat.lt_succ_self _)
  | some s =>
    have hnext : next ⟨source, ignoreCase, text, awaitsLiteral, some s, false⟩ =
        (some .endOfInput, ⟨source, ignoreCase, [], awaitsLiteral, some s, true⟩) := rfl
    rw [collect, take, hnext]
    dsimp only
    rw [take_finished rfl]
    exact ⟨rfl, rfl⟩

end Tokenizer

end RecordFilter
