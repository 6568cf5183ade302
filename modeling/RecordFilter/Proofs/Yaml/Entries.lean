import RecordFilter.Proofs.Yaml.Lines

/-!
# The tokens of a flat text

The scanner reads an entry in two or three steps: the key, at which an entry may begin; the colon,
behind which it knows that there was a key and puts its token before it; and the value, if there is
one. Between entries nothing is open but the mapping itself.
-/

namespace RecordFilter.Yaml

open Cursor (Over AtToken)

namespace Layout

/-- A layout outside of flow collections. -/
def outside (cursor : Cursor) (tokens : List Token) (indent : Int) (indents : List Indent)
    (keyAllowed : Bool) (key : PossibleKey) (adjacentAt : Nat) : Layout where
  cursor := cursor
  tokens := tokens.toArray
  indent := indent
  indents := indents
  keyAllowed := keyAllowed
  key := key
  outerKeys := []
  adjacentAt := adjacentAt
  inMapping := false
  implicitMappings := []

variable {c d : Cursor} {tokens : List Token} {indent : Int} {indents : List Indent}
  {allowed : Bool} {key : PossibleKey} {adjacent : Nat}

@[simp] theorem outside_cursor :
    (outside c tokens indent indents allowed key adjacent).cursor = c := rfl

@[simp] theorem outside_indent :
    (outside c tokens indent indents allowed key adjacent).indent = indent := rfl

@[simp] theorem outside_inFlow :
    (outside c tokens indent indents allowed key adjacent).inFlow = false := rfl

theorem start_eq (text : List Char) :
    start text = outside (.start text) [] (-1) [] true .never 0 := rfl

/-! ## Between tokens -/

variable (tokens indent indents allowed key adjacent) in
theorem outside_toToken? {bound : Nat} (h : Over c d) (hd : d.AtToken)
    (hb : c.rest.length < bound) :
    ∃ allowed', (outside c tokens indent indents allowed key adjacent).toToken? bound =
        some (outside d tokens indent indents allowed' key adjacent) ∧
      ((c.fresh = true → allowed = true) → d.fresh = true → allowed' = true) ∧
      (d.line = c.line → allowed' = allowed) :=
  toToken?_of_over (l := outside c tokens indent indents allowed key adjacent) h hd rfl hb

theorem outside_dropStale? (h : key.possible = true →
      c.line ≤ key.line ∧ c.index ≤ key.index + 1024) :
    (outside c tokens indent indents allowed key adjacent).dropStale? =
      some (outside c tokens indent indents allowed key adjacent) := by
  have hstale : (outside c tokens indent indents allowed key adjacent).isStale key = false := by
    cases hp : key.possible with
    | false => simp [isStale, hp]
    | true =>
      obtain ⟨hline, hindex⟩ := h hp
      simp only [isStale, hp, outside, Bool.true_and, Bool.and_eq_false_iff, Bool.or_eq_false_iff]
      exact .inr ⟨decide_eq_false (Nat.not_lt.mpr hline), decide_eq_false (Nat.not_lt.mpr hindex)⟩
  have hkey : (outside c tokens indent indents allowed key adjacent).key = key := rfl
  have houter : (outside c tokens indent indents allowed key adjacent).outerKeys = [] := rfl
  simp only [dropStale?, hkey, houter, List.any_cons, List.any_nil, hstale, Bool.false_and,
    Bool.or_self, Bool.false_eq_true, if_false, List.map_nil]
  rfl

theorem outside_unroll {column : Int} (h : indent ≤ column) :
    (outside c tokens indent indents allowed key adjacent).unroll column =
      outside c tokens indent indents allowed key adjacent := by
  cases indents with
  | nil => rfl
  | cons i rest =>
    have hnot : ¬ column < indent := by omega
    simp [unroll, unroll.go, outside, inFlow, hnot]

/-- At the beginning of a line the column of the last value is left. -/
theorem outside_unroll_value :
    (outside c tokens 1 [⟨0, false⟩, ⟨-1, true⟩] allowed key adjacent).unroll 0 =
      outside c tokens 0 [⟨-1, true⟩] allowed key adjacent := rfl

/-! ## The colon -/

theorem insertIdx_length_append {α : Type} (xs ys : List α) (a : α) :
    (xs ++ ys).insertIdx xs.length a = xs ++ a :: ys := by
  induction xs with
  | nil => rfl
  | cons x xs ih => simpa using ih

/-- Which columns are open: before the first entry, between two, and behind a value. -/
inductive Standing : List Token → Int → List Indent → Prop
  | first : Standing [] (-1) []
  | between {tokens : List Token} (h : tokens ≠ []) : Standing tokens 0 [⟨-1, true⟩]
  | value {tokens : List Token} (h : tokens ≠ []) : Standing tokens 1 [⟨0, false⟩, ⟨-1, true⟩]

/-- The tokens that come before those of an entry. -/
def opening (tokens : List Token) : List Token :=
  if tokens.isEmpty then [.blockMapping] else tokens

/-- All tokens, when those of the entries are read. -/
def closing (tokens : List Token) : List Token :=
  if tokens.isEmpty then [] else tokens ++ [.blockEnd]

theorem opening_append_ne_nil (ts us : List Token) : opening ts ++ us ≠ [] := by
  cases ts <;> simp [opening]

variable (c allowed key adjacent) in
/-- At the column of the next entry, or at the end, a value is left. -/
theorem outside_unroll_cases (h : Standing tokens indent indents) (column : Nat) :
    ∃ indent' indents', (outside c tokens indent indents allowed key adjacent).unroll column =
        outside c tokens indent' indents' allowed key adjacent ∧
      Standing tokens indent' indents' ∧ (column = 0 → indent' ≤ 0) := by
  cases h with
  | first => exact ⟨-1, [], outside_unroll (by omega), .first, fun _ => by decide⟩
  | between h => exact ⟨0, _, outside_unroll (by omega), .between h, fun _ => by decide⟩
  | value h =>
    by_cases hcol : column = 0
    · subst hcol
      exact ⟨0, _, outside_unroll_value, .between h, fun _ => by decide⟩
    · exact ⟨1, _, outside_unroll (by omega), .value h, fun h0 => absurd h0 hcol⟩

/-- **At the end of the text** the mapping ends, if there is one. -/
theorem outside_finish? (h : Standing tokens indent indents) (hk : key.possible = false) :
    (outside c tokens indent indents allowed key adjacent).finish? = some (closing tokens) := by
  have hkeys : ((outside c tokens indent indents allowed key adjacent).key ::
      (outside c tokens indent indents allowed key adjacent).outerKeys).any
        (fun k => k.possible && k.required) = false := by simp [outside, hk]
  rw [finish?, hkeys]
  cases h with
  | first => simp [outside, unroll, unroll.go, inFlow, closing]
  | between h => simp [outside, unroll, unroll.go, inFlow, push, closing, h]
  | value h => simp [outside, unroll, unroll.go, inFlow, push, closing, h]

variable (allowed adjacent) in
/-- **The colon behind a key**, at which the key and perhaps the mapping begin. -/
theorem outside_readValue? (s : Token) (required : Bool) (index line : Nat)
    (hs : Standing tokens indent indents) (hindent : indent ≤ 0)
    (hcolon : overColon? c = some (c.skip 1)) :
    ∃ key', key'.possible = false ∧
      (outside c (tokens ++ [s]) indent indents allowed
          ⟨true, required, tokens.length, index, line, 0⟩ adjacent).readValue? =
        some (outside (c.skip 1) (opening tokens ++ [.key, s, .value]) 1
          [⟨0, false⟩, ⟨-1, true⟩] false key' adjacent) := by
  refine ⟨⟨false, required, tokens.length, index, line, 0⟩, rfl, ?_⟩
  cases hs with
  | first =>
    simp [readValue?, hcolon, moved, outside, insert, roll, inFlow, rollOne, allowKey, push,
      opening]
  | between h =>
    simp [readValue?, hcolon, moved, outside, insert, roll, inFlow, rollOne, allowKey, push,
      opening, insertIdx_length_append, h]
  | value h => exact absurd hindent (by decide)

/-! ## Scalars -/

/-- Which reader a token asks for depends on its first character, if no mark comes there. -/
theorem readNext?_eq {l : Layout} {e : Char} {rest : List Char}
    (hmark : l.cursor.column = 0 → e ≠ '%' ∧ documentMarkNext (e :: rest) = false)
    (hindent : l.indent ≤ l.cursor.column) : l.readNext? e rest = l.readToken? e rest := by
  have hleft : ¬ (l.cursor.column : Int) < l.indent := by omega
  by_cases hcol : l.cursor.column = 0
  · obtain ⟨hpercent, hdocument⟩ := hmark hcol
    obtain ⟨hdash, hdot⟩ : markNext '-' (e :: rest) = false ∧ markNext '.' (e :: rest) = false := by
      simpa [documentMarkNext] using hdocument
    simp [readNext?, hpercent, hdash, hdot, hleft]
  · simp [readNext?, hcol, hleft]

theorem readToken?_plain {l : Layout} {e : Char} {word rest : List Char} (hflow : l.inFlow = false)
    (hw : isWord (e :: word) = true) (hb : beginsPlain (e :: word) = true) :
    l.readToken? e (word ++ rest) = l.readPlain? := by
  have hblank : (e == '-' || e == '?' || e == ':') = true → blankNext (word ++ rest) = false := by
    intro he
    cases word with
    | nil => simp [beginsPlain, he] at hb
    | cons d word =>
      have hd := (isWord_iff.mp hw).2.1 d (by simp)
      simp [blankNext_cons, hd]
  have hi : isIndicator e = false := by
    simp only [beginsPlain, Bool.and_eq_true, Bool.not_eq_true'] at hb
    exact hb.1
  have hdash : (e == '-' && blankNext (word ++ rest)) = false := by
    by_cases he : e = '-' <;> simp_all
  have hquestion : (e == '?' && blankNext (word ++ rest)) = false := by
    by_cases he : e = '?' <;> simp_all
  have hcolon : (e == ':' && blankNext (word ++ rest)) = false := by
    by_cases he : e = ':' <;> simp_all
  simp only [isIndicator, isFlowMark, List.contains_cons, List.contains_nil, Bool.or_eq_false_iff,
    beq_eq_false_iff_ne] at hi
  simp [readToken?, hflow, hdash, hquestion, hcolon, hi]

theorem readToken?_quoted {l : Layout} {mark : Char} (rest : List Char)
    (hm : mark = '\'' ∨ mark = '"') : l.readToken? mark rest = l.readQuoted? mark := by
  rcases hm with rfl | rfl <;> rfl

theorem readToken?_colon {l : Layout} {rest : List Char} (hblank : blankNext rest = true) :
    l.readToken? ':' rest = l.readValue? := by
  simp [readToken?, hblank]

/-- The key that may have begun at the cursor. -/
def noted (c : Cursor) (tokens : List Token) (indent : Int) (indents : List Indent)
    (allowed : Bool) (key : PossibleKey) : PossibleKey :=
  if allowed then
    ⟨true, indent == (c.column : Int) && (indents.head?.map Indent.block).getD false,
      tokens.length, c.index, c.line, c.column⟩
  else key

theorem outside_noteNode :
    (outside c tokens indent indents allowed key adjacent).noteNode =
      outside c tokens indent indents false (noted c tokens indent indents allowed key)
        adjacent := by
  cases allowed <;> simp [noteNode, noteKey, allowKey, outside, inFlow, noted]

theorem outside_readPlain?_key (hs : Standing tokens indent indents) (hindent : indent ≤ 0) :
    (outside c tokens indent indents allowed key adjacent).readPlain? =
      (plain? (indent + 1) false c).map fun (taken, d) =>
        outside d (tokens ++ [.scalar true (String.ofList taken.reverse)]) indent indents d.fresh
          (noted c tokens indent indents allowed key) adjacent := by
  rw [readPlain?, outside_noteNode]
  cases hs with
  | first => simp [unrollToBlock, unrollToBlock.go, outside, inFlow, allowKey, moved, push]
  | between h => simp [unrollToBlock, unrollToBlock.go, outside, inFlow, allowKey, moved, push]
  | value h => exact absurd hindent (by decide)

theorem outside_readPlain?_value :
    (outside c tokens 1 [⟨0, false⟩, ⟨-1, true⟩] allowed key adjacent).readPlain? =
      (plain? 1 false c).map fun (taken, d) =>
        outside d (tokens ++ [.scalar true (String.ofList taken.reverse)]) 0 [⟨-1, true⟩] d.fresh
          (noted c tokens 1 [⟨0, false⟩, ⟨-1, true⟩] allowed key) adjacent := by
  rw [readPlain?, outside_noteNode]
  simp [unrollToBlock, unrollToBlock.go, outside, inFlow, allowKey, moved, push]

variable (tokens indents allowed key adjacent) in
/-- **A quoted scalar is read**, with what lies behind it up to the next token. -/
theorem outside_readQuoted? {mark : Char} {taken : List Char} {e f : Cursor}
    (hq : quotedAfter indent mark ((c.skip 1).rest.length + 1) [] (c.skip 1) = some (taken, e))
    (ht : e.overTrailer? = some f)
    (hends : lineEnds f.rest = true ∨ f.rest.head? = some ':' ∧ f.line = c.line)
    (hf : f.fresh = false) (hover : Over f d) (hd : d.AtToken) :
    ∃ allowed', (outside c tokens indent indents allowed key adjacent).readQuoted? mark =
        some (outside d (tokens ++ [.scalar false (String.ofList taken.reverse)]) indent indents
          allowed' (noted c tokens indent indents allowed key) d.index) ∧
      (d.fresh = true → allowed' = true) := by
  obtain ⟨allowed', htoken, hready, -⟩ := outside_toToken? tokens indent indents false
    (noted c tokens indent indents allowed key) adjacent hover hd (Nat.lt_succ_self _)
  refine ⟨allowed', ?_, hready (by simp [hf])⟩
  rw [readQuoted?, outside_noteNode]
  simp only [outside_cursor, outside_indent, outside_inFlow, hq, ht, Bool.false_or]
  have hmoved : (outside c tokens indent indents false (noted c tokens indent indents allowed key)
      adjacent).moved f = outside f tokens indent indents false
        (noted c tokens indent indents allowed key) adjacent := rfl
  rw [hmoved, htoken]
  rcases hends with hend | ⟨hcolon, hline⟩
  · cases hr : f.rest with
    | nil => simp [outside, push]
    | cons x rest =>
      obtain rfl : x = '\n' := by simpa [hr, lineEnds] using hend
      simp [outside, push]
  · obtain ⟨rest, hrest⟩ : ∃ rest, f.rest = ':' :: rest := by
      cases hr : f.rest with
      | nil => simp [hr] at hcolon
      | cons x rest => exact ⟨rest, by simp_all⟩
    simp [hrest, hline, outside, push]

/-! ## The parts of an entry -/

theorem Written.isValid_quoted {mark : Char} {pieces : List (List Char × Char)}
    (h : (Written.quoted mark pieces).isValid = true) :
    (mark = '\'' ∨ mark = '"') ∧ ∀ p ∈ pieces, spells mark p.1 p.2 = true := by
  simpa [Written.isValid] using h

variable (tokens indents allowed key adjacent) in
/-- A quoted scalar is read from its opening mark on. -/
theorem outside_quoted {mark : Char} {pieces : List (List Char × Char)} {rest : List Char}
    {f : Cursor} (hw : (Written.quoted mark pieces).isValid = true)
    (hc : c.rest = (Written.quoted mark pieces).chars ++ rest)
    (hrest : mark = '\'' → rest.head? ≠ some '\'') (hindent : indent ≤ (c.column + 1 : Nat))
    (ht : (c.skip (Written.quoted mark pieces).chars.length).overTrailer? = some f)
    (hends : lineEnds f.rest = true ∨ f.rest.head? = some ':' ∧ f.line = c.line)
    (hf : f.fresh = false) (hover : Over f d) (hd : d.AtToken) :
    ∃ allowed', (outside c tokens indent indents allowed key adjacent).readQuoted? mark =
        some (outside d (tokens ++ [(Written.quoted mark pieces).token]) indent indents
          allowed' (noted c tokens indent indents allowed key) d.index) ∧
      (d.fresh = true → allowed' = true) := by
  obtain ⟨hm, hp⟩ := Written.isValid_quoted hw
  have hopen : (c.skip 1).rest = pieces.flatMap Prod.fst ++ (mark :: rest) := by
    simp [Cursor.skip, hc, Written.chars]
  have hlen : pieces.length < (c.skip 1).rest.length + 1 := by
    have := length_le_flatMap hp
    simp only [hopen, List.length_append]
    omega
  have hq := quotedAfter_pieces indent [] hm hp hopen ⟨rest, rfl, hrest⟩ (by simp [Cursor.skip])
    hindent (c.skip_fresh (by decide)) hlen
  have hbehind : (c.skip 1).skip ((pieces.flatMap Prod.fst).length + 1) =
      c.skip (Written.quoted mark pieces).chars.length := by
    rw [Cursor.skip_skip, Written.chars, List.length_cons, List.length_append,
      List.length_singleton, Nat.add_comm]
  rw [hbehind] at hq
  simpa [Written.token, Written.isPlain, Written.text] using
    outside_readQuoted? tokens indents allowed key adjacent hq ht hends hf hover hd

theorem overTrailer?_colon {rest : List Char} (hc : c.rest = ':' :: rest) :
    c.overTrailer? = some c := by
  have hgaps : c.overGaps = c := by
    have hzero : c.rest.takeWhile isGap = [] := by simp [hc, isGap]
    simp [Cursor.overGaps, hzero, Cursor.skipGaps, Cursor.skip]
  rw [Cursor.overTrailer?, hgaps, hc]
  rfl

theorem readNext?_plain {l : Layout} {e : Char} {word rest : List Char}
    {more : List (List Char × List Char)} (hw : (Written.plain (e :: word) more).isValid = true)
    (hflow : l.inFlow = false) (hindent : l.indent ≤ l.cursor.column)
    (hdocument : l.cursor.column = 0 → documentMarkNext (e :: (word ++ rest)) = false) :
    l.readNext? e (word ++ rest) = l.readPlain? := by
  obtain ⟨⟨hword, hb⟩, -⟩ : (isWord (e :: word) = true ∧ beginsPlain (e :: word) = true) ∧
      more.all Written.follows = true := by simpa [Written.isValid] using hw
  have hpercent : e ≠ '%' := by
    rintro rfl
    simp [beginsPlain, isIndicator] at hb
  rw [readNext?_eq (fun hcol => ⟨hpercent, hdocument hcol⟩) hindent,
    readToken?_plain hflow hword hb]

theorem documentMarkNext_cons {e : Char} (rest : List Char) (hdash : e ≠ '-') (hdot : e ≠ '.') :
    documentMarkNext (e :: rest) = false := by
  unfold documentMarkNext markNext
  split <;> simp_all

theorem readNext?_quoted {l : Layout} {mark : Char} (rest : List Char)
    (hm : mark = '\'' ∨ mark = '"') (hindent : l.indent ≤ l.cursor.column) :
    l.readNext? mark rest = l.readQuoted? mark := by
  rw [readNext?_eq (fun _ => ?_) hindent, readToken?_quoted rest hm]
  rcases hm with rfl | rfl <;>
    exact ⟨by decide, documentMarkNext_cons rest (by decide) (by decide)⟩

variable (allowed key adjacent) in
/-- **The key of an entry.** -/
theorem outside_key {w : Written} {rest : List Char} (hw : w.isValid = true)
    (hs : Standing tokens indent indents) (hindent : indent ≤ 0)
    (hc : c.rest = w.chars ++ ':' :: rest) (hblank : blankNext rest = true)
    (hdocument : documentMarkNext c.rest = false) :
    ∃ e cs allowed' adjacent', c.rest = e :: cs ∧
      (outside c tokens indent indents allowed key adjacent).readNext? e cs =
        some (outside (c.skip w.chars.length) (tokens ++ [w.token]) indent indents allowed'
          (noted c tokens indent indents allowed key) adjacent') := by
  have hcolumn : indent ≤ c.column := by omega
  cases w with
  | plain word more =>
    obtain ⟨e, word, rfl⟩ : ∃ e w, word = e :: w := by
      cases word with
      | nil => simp [Written.isValid, isWord] at hw
      | cons e w => exact ⟨e, w, rfl⟩
    have hcs : c.rest = e :: (word ++ (Written.joined more ++ ':' :: rest)) := by
      simp [hc, Written.chars]
    have hplain := plain?_before_colon (indent + 1) hw hc hblank (fun _ => hdocument)
      (by omega)
    refine ⟨e, _, (c.skip (Written.plain (e :: word) more).chars.length).fresh, adjacent, hcs, ?_⟩
    rw [readNext?_plain hw rfl hcolumn (fun _ => hcs ▸ hdocument),
      outside_readPlain?_key hs hindent, hplain, Option.map_some]
    dsimp only
    rw [List.reverse_reverse]
    rfl
  | quoted mark pieces =>
    have hrest := c.skip_rest hc
    have hat : (c.skip (Written.quoted mark pieces).chars.length).AtToken := by
      simp [AtToken, hrest]
    have hindent' : indent ≤ (c.column + 1 : Nat) := by omega
    obtain ⟨allowed', hread, -⟩ := outside_quoted tokens indents allowed key adjacent hw hc
      (by simp) hindent' (overTrailer?_colon hrest) (.inr ⟨by simp [hrest], rfl⟩)
      (c.skip_fresh (by simp [Written.chars])) (.refl _) hat
    refine ⟨mark, _, allowed', (c.skip (Written.quoted mark pieces).chars.length).index, hc, ?_⟩
    rw [readNext?_quoted _ (Written.isValid_quoted hw).1 hcolumn, hread]

theorem head?_ne_of_blankNext {e : Char} {rest : List Char} (h : blankNext rest = true)
    (he : isGap e = false) (hbreak : e ≠ '\n') : rest.head? ≠ some e := by
  cases rest with
  | nil => simp
  | cons d rest =>
    intro hd
    obtain rfl : d = e := by simpa using hd
    simp [blankNext_cons, he, hbreak] at h

variable (tokens key adjacent) in
/-- **The value of an entry**, with what lies behind it up to the next entry. -/
theorem outside_value {w : Written} {rest : List Char} {f : Cursor} (hw : w.isValid = true)
    (hcol : c.column ≠ 0) (hc : c.rest = w.chars ++ rest)
    (hblank : blankNext rest = true) (hover : Over (c.skip w.chars.length) f)
    (ht : (c.skip w.chars.length).overTrailer? = some f) (hends : lineEnds f.rest = true)
    (hf : f.fresh = false) (hd : Over f d) (hat : d.AtToken)
    (hleft : d.rest ≠ [] → d.column = 0) :
    ∃ e cs g indent' indents' allowed' adjacent', c.rest = e :: cs ∧
      (outside c tokens 1 [⟨0, false⟩, ⟨-1, true⟩] false key adjacent).readNext? e cs =
        some (outside g (tokens ++ [w.token]) indent' indents' allowed' key adjacent') ∧
      Standing (tokens ++ [w.token]) indent' indents' ∧ Over g d ∧
      (g.fresh = true → allowed' = true) := by
  have hcolumn : (1 : Int) ≤ c.column := by omega
  have hne : tokens ++ [w.token] ≠ [] := by simp
  cases w with
  | plain word more =>
    obtain ⟨e, word, rfl⟩ : ∃ e w, word = e :: w := by
      cases word with
      | nil => simp [Written.isValid, isWord] at hw
      | cons e w => exact ⟨e, w, rfl⟩
    have hcs : c.rest = e :: (word ++ (Written.joined more ++ rest)) := by
      simp [hc, Written.chars]
    obtain ⟨g, hplain, hg⟩ := plain?_before_token 1 hw hc hblank
      (fun h => absurd h hcol) (by decide) (hover.trans hd) hat
      (by by_cases hr : d.rest = [] <;> simp_all)
    refine ⟨e, _, g, 0, _, g.fresh, adjacent, hcs, ?_, .between hne, hg, id⟩
    rw [readNext?_plain hw rfl hcolumn (fun h => absurd h hcol), outside_readPlain?_value, hplain,
      Option.map_some]
    dsimp only
    rw [List.reverse_reverse]
    rfl
  | quoted mark pieces =>
    have hindent : (1 : Int) ≤ (c.column + 1 : Nat) := by omega
    obtain ⟨allowed', hread, hready⟩ := outside_quoted tokens [⟨0, false⟩, ⟨-1, true⟩] false key
      adjacent hw hc (fun hm => head?_ne_of_blankNext hblank (by decide) (by decide)) hindent ht
      (.inl hends) hf hd hat
    refine ⟨mark, _, d, 1, _, allowed', d.index, hc, ?_, .value hne, .refl d, hready⟩
    rw [readNext?_quoted _ (Written.isValid_quoted hw).1 hcolumn, hread]
    rfl

end Layout

end RecordFilter.Yaml
