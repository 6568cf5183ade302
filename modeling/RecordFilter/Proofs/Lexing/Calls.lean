import Mathlib
import RecordFilter.Proofs.Lexing.Unread

/-!
# Reading a text through any calls

A tokenizer hands out tokens in two ways: `nextToken` answers every call, and the iterator, `next`
one by one or `collect` all at once, comes to an end. Both go on where the other has stopped. So
however the calls follow each other, what a tokenizer has handed out since its last reset is a
beginning of the tokens of its text, with the end repeated, and its place in the text depends on how
many tokens these are and on nothing else. Only the iterator's coming to its end is a memory of its
own, and a list of all tokens from there on is empty.

* `follows_call`: what one call keeps;
* `follows_calls`: what all calls keep;
* `calls_read`: the tokens handed out, the cursor and the stray character, through any calls;
* `tokenize_calls`: the list of all tokens from any place on.
-/

namespace RecordFilter.Tokenizer

/-- What a tokenizer can be asked for. -/
inductive Call where
  | next
  | nextToken
  | collect
  | reset

/-- A tokenizer with what it has handed out since it was reset. -/
structure Session where
  tokenizer : Tokenizer
  /-- All tokens, in the order in which they were handed out. -/
  produced : List Token
  /-- Those of them that the iterator handed out. -/
  yielded : List Token

namespace Session

/-- A tokenizer at the beginning of a text. -/
def start (text : List Char) (ignoreCase : Bool) : Session := ⟨ofText text ignoreCase, [], []⟩

/-- The iterator answers with tokens and a tokenizer. -/
def yield (s : Session) (answer : List Token × Tokenizer) : Session :=
  ⟨answer.2, s.produced ++ answer.1, s.yielded ++ answer.1⟩

/-- After a call. -/
def call (s : Session) : Call → Session
  | .next => s.yield (s.tokenizer.next.1.toList, s.tokenizer.next.2)
  | .nextToken => ⟨s.tokenizer.nextToken.2, s.produced ++ [s.tokenizer.nextToken.1], s.yielded⟩
  | .collect => s.yield s.tokenizer.collect
  | .reset => ⟨s.tokenizer.reset, [], []⟩

/-- After calls one after the other. -/
def calls (s : Session) (cs : List Call) : Session := cs.foldl call s

/-! ## What a call keeps -/

/-- The tokenizer stands where the number of tokens that it has handed out puts it, and remembers
whether the iterator has come to its end. -/
structure Follows (text : List Char) (ignoreCase : Bool) (s : Session) : Prop where
  place : s.tokenizer =
    { (ofText text ignoreCase).skip s.produced.length with finished := s.tokenizer.finished }
  produced : s.produced =
    (List.range s.produced.length).map fun k => ((ofText text ignoreCase).skip k).nextToken.1
  yielded : s.yielded.Sublist s.produced
  finished : s.tokenizer.finished = true ↔ .endOfInput ∈ s.yielded
  last : .endOfInput ∉ s.yielded.dropLast

variable {text : List Char} {ignoreCase : Bool} {s : Session}

theorem follows_start (text : List Char) (ignoreCase : Bool) :
    Follows text ignoreCase (start text ignoreCase) where
  place := rfl
  produced := rfl
  yielded := .slnil
  finished := by simp [start, ofText]
  last := List.not_mem_nil

theorem Follows.nextToken (h : Follows text ignoreCase s) :
    s.tokenizer.nextToken = (((ofText text ignoreCase).skip s.produced.length).nextToken.1,
      { (ofText text ignoreCase).skip (s.produced.length + 1) with
        finished := s.tokenizer.finished }) := by
  conv_lhs => rw [h.place]
  exact nextToken_finished _ _

theorem Follows.produced_concat (h : Follows text ignoreCase s) :
    s.produced ++ [s.tokenizer.nextToken.1] = (List.range (s.produced.length + 1)).map
      fun k => ((ofText text ignoreCase).skip k).nextToken.1 := by
  rw [List.range_succ, List.map_append, ← h.produced, h.nextToken]
  rfl

theorem follows_nextToken (h : Follows text ignoreCase s) :
    Follows text ignoreCase (s.call .nextToken) := by
  have hfinished : s.tokenizer.nextToken.2.finished = s.tokenizer.finished := by rw [h.nextToken]
  constructor
  · simp [call, h.nextToken]
  · simpa [call] using h.produced_concat
  · exact h.yielded.trans (List.sublist_append_left _ _)
  · rw [call, hfinished]
    exact h.finished
  · exact h.last

theorem call_next_of_finished (h : s.tokenizer.finished = true) : s.call .next = s := by
  simp [call, yield, next_of_finished h]

/-- The iterator hands out the next token, and remembers if it is the end. -/
theorem call_next_of_not_finished (h : s.tokenizer.finished = false) :
    s.call .next = s.yield ([s.tokenizer.nextToken.1],
      { s.tokenizer.nextToken.2 with
        finished := decide (s.tokenizer.nextToken.1 = .endOfInput) }) := by
  have hkept : s.tokenizer.nextToken.2.finished = false := by
    rw [← h]
    exact congrArg (fun answer => answer.2.finished)
      (nextToken_finished s.tokenizer s.tokenizer.finished)
  rw [call, next, if_neg (by rw [h]; exact Bool.false_ne_true)]
  by_cases hend : s.tokenizer.nextToken.1 = .endOfInput
  · simp [hend]
  · simp only [hend, if_false, decide_false, Option.toList_some]
    rw [← hkept]

theorem follows_next (h : Follows text ignoreCase s) : Follows text ignoreCase (s.call .next) := by
  cases hfinished : s.tokenizer.finished with
  | true =>
    rw [call_next_of_finished hfinished]
    exact h
  | false =>
    have hfresh : .endOfInput ∉ s.yielded := by
      rw [← h.finished, hfinished]
      exact Bool.false_ne_true
    rw [call_next_of_not_finished hfinished]
    constructor
    · simp [yield, h.nextToken]
    · simpa [yield] using h.produced_concat
    · exact h.yielded.append (List.Sublist.refl _)
    · simp [yield, hfresh, eq_comm]
    · simpa [yield] using hfresh

theorem exists_nexts (bound : Nat) (taken : List Token) (t : Tokenizer) (s : Session) :
    ∃ n, s.yield (take bound taken t) =
      (fun s => s.call .next)^[n] (s.yield (taken.reverse, t)) := by
  induction bound generalizing taken t with
  | zero => exact ⟨0, rfl⟩
  | succ bound ih =>
    have hcall : (s.yield (taken.reverse, t)).call .next =
        s.yield (taken.reverse ++ t.next.1.toList, t.next.2) := by
      simp [call, yield]
    rw [take]
    cases hnext : t.next with
    | mk token? t' =>
      rw [hnext] at hcall
      cases token? with
      | none => exact ⟨1, by rw [Function.iterate_one, hcall]; simp⟩
      | some token =>
        obtain ⟨n, hn⟩ := ih (token :: taken) t'
        refine ⟨n + 1, hn.trans ?_⟩
        rw [Function.iterate_succ_apply, hcall]
        simp

theorem follows_collect (h : Follows text ignoreCase s) :
    Follows text ignoreCase (s.call .collect) := by
  obtain ⟨n, hn⟩ := exists_nexts (s.tokenizer.rest.length + 1) [] s.tokenizer s
  have hcollect : s.call .collect = (fun s => s.call .next)^[n] s := by
    refine hn.trans ?_
    simp [yield]
  rw [hcollect]
  clear hn hcollect
  induction n generalizing s with
  | zero => exact h
  | succ n ih => exact ih (follows_next h)

theorem Follows.cursor_eq (h : Follows text ignoreCase s) :
    s.tokenizer.cursor = ((ofText text ignoreCase).skip s.produced.length).cursor := by
  rw [h.place]
  rfl

theorem Follows.stray_eq (h : Follows text ignoreCase s) :
    s.tokenizer.stray = ((ofText text ignoreCase).skip s.produced.length).stray := by
  rw [h.place]

theorem Follows.unread_eq (h : Follows text ignoreCase s) :
    s.tokenizer.unread = (ofText text ignoreCase).unread.drop s.produced.length := by
  rw [h.place, ← unread_skip]
  rfl

theorem Follows.lastStray_eq (h : Follows text ignoreCase s) :
    s.tokenizer.lastStray = (ofText text ignoreCase).lastStray := by
  rw [h.place, ← lastStray_skip (ofText text ignoreCase) s.produced.length]
  rfl

theorem Follows.reset (h : Follows text ignoreCase s) :
    s.tokenizer.reset = ofText text ignoreCase := by
  rw [h.place]
  exact reset_skip _ _

/-- **What one call keeps.** -/
theorem follows_call (h : Follows text ignoreCase s) (c : Call) :
    Follows text ignoreCase (s.call c) := by
  cases c with
  | next => exact follows_next h
  | nextToken => exact follows_nextToken h
  | collect => exact follows_collect h
  | reset =>
    rw [call, h.reset]
    exact follows_start text ignoreCase

/-- **What all calls keep.** -/
theorem follows_calls (h : Follows text ignoreCase s) (cs : List Call) :
    Follows text ignoreCase (s.calls cs) := by
  induction cs generalizing s with
  | nil => exact h
  | cons c cs ih => exact ih (follows_call h c)

/-! ## What the calls read -/

theorem produced_prefix_calls (s : Session) {cs : List Call} (hcs : .reset ∉ cs) :
    s.produced <+: (s.calls cs).produced := by
  induction cs generalizing s with
  | nil => exact List.prefix_rfl
  | cons c cs ih =>
    obtain ⟨hc, hcs⟩ := not_or.mp (List.mem_cons.not.mp hcs)
    refine List.IsPrefix.trans ?_ (ih (s.call c) hcs)
    cases c with
    | reset => exact absurd rfl hc
    | _ => exact List.prefix_append _ _

/-- The tokens of the text are those not read at its beginning, and the end. -/
theorem list_ofText (text : List Char) (ignoreCase : Bool) :
    TokenList.ofText text ignoreCase =
      ⟨(ofText text ignoreCase).unread ++ [.endOfInput], (ofText text ignoreCase).lastStray⟩ :=
  TokenList.ofText_eq text ignoreCase

theorem endOfInput_not_mem_unread (text : List Char) (ignoreCase : Bool) :
    .endOfInput ∉ (ofText text ignoreCase).unread :=
  Lexeme.endOfInput_not_mem_readAll ignoreCase false text

theorem getElem?_min_concat {α : Type} (as : List α) (a : α) (k : Nat) :
    (as ++ [a])[min k as.length]? = some ((as.drop k).headD a) := by
  rw [List.headD_eq_head?_getD, List.head?_drop]
  rcases Nat.lt_or_ge k as.length with hk | hk
  · rw [Nat.min_eq_left hk.le, List.getElem?_append_left hk, List.getElem?_eq_getElem hk]
    rfl
  · rw [Nat.min_eq_right hk, List.getElem?_concat_length, List.getElem?_eq_none hk]
    rfl

theorem Follows.getElem?_produced (h : Follows text ignoreCase s) {k : Nat}
    (hk : k < s.produced.length) :
    s.produced[k]? = some (((ofText text ignoreCase).unread.drop k).headD .endOfInput) := by
  rw [h.produced, List.getElem?_map, List.getElem?_range hk, Option.map_some, token_skip]

theorem Follows.length_unread_lt (h : Follows text ignoreCase s)
    (hend : .endOfInput ∈ s.produced) :
    (ofText text ignoreCase).unread.length < s.produced.length := by
  obtain ⟨k, hk⟩ := List.mem_iff_getElem?.mp hend
  have hlt : k < s.produced.length := (List.getElem?_eq_some_iff.mp hk).1
  rw [h.getElem?_produced hlt, Option.some.injEq, List.headD_eq_head?_getD, List.head?_drop] at hk
  refine Nat.lt_of_le_of_lt (Nat.le_of_not_lt fun hread => ?_) hlt
  rw [List.getElem?_eq_getElem hread, Option.getD_some] at hk
  exact endOfInput_not_mem_unread text ignoreCase (hk ▸ List.getElem_mem hread)

/-- **A text can be read through any calls.** A reset begins anew. The tokens handed out since then
are those of the text, the end of which is repeated; the cursor and the stray character are those
after as many calls of `nextToken`. Without a reset the cursor never goes back, and a stray
character stays. The iterator hands out the end once and nothing after it, while `nextToken` answers
with the end again. -/
theorem calls_read (text : List Char) (ignoreCase : Bool) (cs : List Call) :
    let ts := (TokenList.ofText text ignoreCase).tokens
    let s := (start text ignoreCase).calls cs
    let t := (ofText text ignoreCase).skip s.produced.length
    s.tokenizer.reset = ofText text ignoreCase ∧
      (∀ k < s.produced.length, s.produced[k]? = ts[min k (ts.length - 1)]?) ∧
      (s.tokenizer.cursor = t.cursor ∧ s.tokenizer.stray = t.stray) ∧
      (∀ ds, .reset ∉ ds → s.tokenizer.cursor ≤ (s.calls ds).tokenizer.cursor ∧
        ∀ c, s.tokenizer.stray = some c → (s.calls ds).tokenizer.stray = some c) ∧
      .endOfInput ∉ s.yielded.dropLast ∧
      (.endOfInput ∈ s.yielded → s.tokenizer.next.1 = none ∧ s.tokenizer.collect.1 = []) ∧
      (.endOfInput ∈ s.produced → s.tokenizer.nextToken.1 = .endOfInput) := by
  intro ts s t
  have h : Follows text ignoreCase s := follows_calls (follows_start text ignoreCase) cs
  refine ⟨h.reset, fun k hk => ?_, ⟨?_, ?_⟩, fun ds hds => ?_, h.last, fun hend => ?_,
    fun hend => ?_⟩
  · have hlast : ts.length - 1 = (ofText text ignoreCase).unread.length := by
      simp [ts, list_ofText]
    rw [h.getElem?_produced hk, hlast]
    simp only [ts, list_ofText]
    exact (getElem?_min_concat _ _ k).symm
  · exact h.cursor_eq
  · exact h.stray_eq
  · have hmore : Follows text ignoreCase (s.calls ds) := follows_calls h ds
    have hlength := (produced_prefix_calls s hds).length_le
    rw [h.cursor_eq, h.stray_eq, hmore.cursor_eq, hmore.stray_eq]
    exact ⟨monotone_cursor_skip _ hlength, fun c => stray_skip_of_le hlength⟩
  · have hfinished := h.finished.mpr hend
    rw [next_of_finished hfinished, collect_of_finished hfinished]
    exact ⟨rfl, rfl⟩
  · rw [h.nextToken, token_skip, List.drop_eq_nil_of_le (h.length_unread_lt hend).le]
    rfl

/-- **The list of all tokens from any place on**: the tokens not yet read and the end after them,
unless the iterator has handed out the end; then the list is empty. -/
theorem tokenize_calls (text : List Char) (ignoreCase : Bool) :
    ∃ ts, (TokenList.ofText text ignoreCase).tokens = ts ++ [.endOfInput] ∧ .endOfInput ∉ ts ∧
      ∀ cs, let s := (start text ignoreCase).calls cs
        s.tokenizer.tokenize =
          ⟨if .endOfInput ∈ s.yielded then [] else ts.drop s.produced.length ++ [.endOfInput],
            (TokenList.ofText text ignoreCase).stray⟩ := by
  refine ⟨(ofText text ignoreCase).unread, by rw [list_ofText],
    endOfInput_not_mem_unread text ignoreCase, fun cs => ?_⟩
  intro s
  have h : Follows text ignoreCase s := follows_calls (follows_start text ignoreCase) cs
  rw [list_ofText]
  split
  · next hend =>
    have hread := h.length_unread_lt (h.yielded.subset hend)
    rw [tokenize, collect_of_finished (h.finished.mpr hend)]
    dsimp only
    rw [h.stray_eq, stray_skip hread]
  · next hend =>
    have hfinished : s.tokenizer.finished = false := by
      rw [← Bool.not_eq_true, h.finished]
      exact hend
    obtain ⟨htokens, hstray⟩ := collect_of_not_finished hfinished
    rw [h.unread_eq] at htokens
    rw [h.lastStray_eq] at hstray
    rw [tokenize, ← htokens, ← hstray]

/-- After a collection the list lacks its end. -/
example : ((start "a 1".toList false).calls [.collect]).tokenizer.tokenize.tokens = [] := by
  decide

end Session

end RecordFilter.Tokenizer
