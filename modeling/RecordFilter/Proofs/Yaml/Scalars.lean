import RecordFilter.Proofs.Yaml.Cursors
import RecordFilter.Yaml.Document

/-!
# Scalars on one line

A scalar that is written on one line is read as what it is. A plain one consists of words with gaps
between them, and ends before a colon with a blank behind it, or before whatever lies between
tokens. A quoted one consists of pieces that stand for a character each, between two marks.

* `Written`: a scalar with its spelling;
* `plain?_before_colon`, `plain?_before_token`: plain scalars;
* `quotedAfter_pieces`: quoted scalars.
-/

namespace RecordFilter.Yaml

open Cursor (Over AtToken)

/-! ## Spelling -/

/-- A word of a plain scalar. A colon ends one when a blank follows it. -/
def isWord (w : List Char) : Bool :=
  !w.isEmpty && w.all (fun c => !isGap c && c != '\n') && w.getLast? != some ':'

/-- The character begins something else than a plain scalar. -/
def isIndicator (c : Char) : Bool :=
  isFlowMark c || ['#', '&', '*', '!', '|', '>', '\'', '"', '%', '@', '\x60'].contains c

/-- A plain scalar may begin with the word. -/
def beginsPlain : List Char → Bool
  | [] => false
  | c :: rest => !isIndicator c && !((c == '-' || c == '?' || c == ':') && rest.isEmpty)

/-- The characters stand for the one character between two marks. A single quote is written twice,
and other characters may be written as a backslash and a letter between double quotes. -/
def spells (mark : Char) (spelling : List Char) (d : Char) : Bool :=
  match spelling with
  | [c] => c == d && c != mark && c != '\n' && !(mark == '"' && c == '\\')
  | [a, b] =>
    if mark == '\'' then a == '\'' && b == '\'' && d == '\''
    else a == '\\' && escapeLetter? b == some d
  | _ => false

/-- **A scalar as it is written on one line.** -/
inductive Written where
  /-- Words, of which all but the first have a gap before them. -/
  | plain (word : List Char) (more : List (List Char × List Char))
  /-- The spellings of characters between two marks. -/
  | quoted (mark : Char) (pieces : List (List Char × Char))

namespace Written

/-- The words that follow the first one, with the gaps before them. -/
def joined (more : List (List Char × List Char)) : List Char := more.flatMap fun p => p.1 ++ p.2

/-- The characters that are written. -/
def chars : Written → List Char
  | .plain word more => word ++ joined more
  | .quoted mark pieces => mark :: (pieces.flatMap Prod.fst ++ [mark])

/-- The text that the scalar is. -/
def text : Written → List Char
  | .plain word more => word ++ joined more
  | .quoted _ pieces => pieces.map Prod.snd

/-- A plain scalar may stand for something else than its text. -/
def isPlain : Written → Bool
  | .plain _ _ => true
  | .quoted _ _ => false

/-- A word with a gap before it can follow in a plain scalar. -/
def follows (p : List Char × List Char) : Bool :=
  !p.1.isEmpty && p.1.all isGap && isWord p.2 && p.2.head? != some '#'

theorem follows_iff {gaps w : List Char} : follows (gaps, w) = true ↔
    gaps ≠ [] ∧ (∀ g ∈ gaps, isGap g = true) ∧ isWord w = true ∧ w.head? ≠ some '#' := by
  simp [follows, and_assoc]

theorem length_le_joined {more : List (List Char × List Char)} (h : more.all follows = true) :
    more.length ≤ (joined more).length := by
  induction more with
  | nil => simp
  | cons p more ih =>
    obtain ⟨hp, hmore⟩ : follows (p.1, p.2) = true ∧ more.all follows = true := by simpa using h
    have hne := List.length_pos_iff.mpr (follows_iff.mp hp).1
    have := ih hmore
    simp only [joined, List.flatMap_cons, List.length_cons, List.length_append] at this ⊢
    omega

/-- **The scalar is written as one.** -/
def isValid : Written → Bool
  | .plain word more => isWord word && beginsPlain word && more.all follows
  | .quoted mark pieces =>
    (mark == '\'' || mark == '"') && pieces.all fun p => spells mark p.1 p.2

/-- The token of the scalar. -/
def token (w : Written) : Token := .scalar w.isPlain (String.ofList w.text)

/-- The node of the scalar. -/
def node (w : Written) : Node := scalar none w.isPlain (String.ofList w.text)

end Written

/-! ## Plain scalars -/

theorem isWord_iff {w : List Char} : isWord w = true ↔
    w ≠ [] ∧ (∀ c ∈ w, isGap c = false ∧ c ≠ '\n') ∧ w.getLast? ≠ some ':' := by
  simp [isWord, and_assoc]

/-- The word that remains does not go on. -/
def Stops (rest : List Char) : Prop := blankNext rest = true ∨ plainNext false rest = false

theorem blankNext_cons {c : Char} {rest : List Char} :
    blankNext (c :: rest) = (isGap c || c == '\n') := rfl

theorem plainNext_of_word {d : Char} {w rest : List Char} (h : isWord (d :: w) = true) :
    (!blankNext (d :: (w ++ rest)) && plainNext false (d :: (w ++ rest))) = true := by
  obtain ⟨-, hall, hlast⟩ := isWord_iff.mp h
  obtain ⟨hd, hw⟩ := List.forall_mem_cons.mp hall
  have hb : blankNext (d :: (w ++ rest)) = false := by simp [blankNext_cons, hd]
  rw [hb]
  by_cases hc : d = ':'
  · subst hc
    cases w with
    | nil => simp at hlast
    | cons e w =>
      have he := hw e (by simp)
      simp [plainNext, blankNext_cons, he]
  · unfold plainNext
    split <;> simp_all

theorem plainRun_word {w rest taken : List Char} {c : Cursor} {bound : Nat}
    (hw : isWord w = true ∨ w = []) (hc : c.rest = w ++ rest) (hs : Stops rest)
    (hb : w.length ≤ bound) :
    plainRun false bound taken c = (w.reverse ++ taken, c.skip w.length) := by
  induction w generalizing taken c bound with
  | nil =>
    rw [List.nil_append] at hc
    have hstop : (!blankNext c.rest && plainNext false c.rest) = false := by
      rw [hc]
      rcases hs with h | h <;> simp [h]
    cases bound with
    | zero => simp [plainRun, Cursor.skip_zero]
    | succ bound =>
      rw [plainRun]
      split
      · simp [Cursor.skip_zero]
      · simp [hstop, Cursor.skip_zero]
  | cons d w ih =>
    have hw := hw.resolve_right (List.cons_ne_nil _ _)
    obtain ⟨bound, rfl⟩ := Nat.exists_eq_succ_of_ne_zero (n := bound) (by rintro rfl; simp at hb)
    have hrest : isWord w = true ∨ w = [] := by
      cases w with
      | nil => exact .inr rfl
      | cons e w =>
        obtain ⟨-, hall, hlast⟩ := isWord_iff.mp hw
        exact .inl (isWord_iff.mpr
          ⟨by simp, (List.forall_mem_cons.mp hall).2, by simpa using hlast⟩)
    rw [List.cons_append] at hc
    rw [plainRun, hc]
    simp only [plainNext_of_word hw, if_true]
    rw [ih hrest (by simp [Cursor.skip, hc]) (by simpa using hb), Cursor.skip_skip]
    simp [Nat.add_comm 1]

theorem plainSpace_gaps (indent : Int) (before : List Char) {gaps rest : List Char} {c : Cursor}
    {bound : Nat} (hg : ∀ d ∈ gaps, isGap d = true) (hc : c.rest = gaps ++ rest)
    (hr : blankNext rest = false) (hf : c.fresh = false) (hb : gaps.length < bound) :
    plainSpace indent bound ⟨before, 0⟩ c =
      some (⟨gaps.reverse ++ before, 0⟩, c.skip gaps.length) := by
  induction gaps generalizing c bound before with
  | nil =>
    obtain ⟨bound, rfl⟩ := Nat.exists_eq_succ_of_ne_zero (Nat.ne_zero_of_lt hb)
    rw [List.nil_append] at hc
    subst hc
    rw [plainSpace]
    split
    · rename_i h; simp [h, blankNext_cons, isGap] at hr
    · rename_i h; simp [h, blankNext_cons, isGap] at hr
    · rename_i h; simp [h, blankNext_cons, isGap] at hr
    · simp [Cursor.skip_zero]
  | cons d gaps ih =>
    obtain ⟨bound, rfl⟩ := Nat.exists_eq_succ_of_ne_zero (Nat.ne_zero_of_lt hb)
    obtain ⟨hd, hgaps⟩ := List.forall_mem_cons.mp hg
    have hstep : plainSpace indent (bound + 1) ⟨before, 0⟩ c =
        plainSpace indent bound ⟨d :: before, 0⟩ (c.skip 1) := by
      have hd : d = ' ' ∨ d = '\t' := by simpa [isGap] using hd
      rw [plainSpace, hc, ← Cursor.afterGap_eq_skip hf]
      rcases hd with rfl | rfl <;> simp [hf, Space.gap]
    rw [hstep, ih _ hgaps (by simp [Cursor.skip, hc]) (Cursor.skip_fresh _ (by decide))
      (by simpa using hb), Cursor.skip_skip]
    simp [Nat.add_comm 1]

/-- What is read behind the last word. -/
def plainEnd (indent : Int) (bound : Nat) (taken : List Char) (c : Cursor) : Option Read :=
  if c.rest.isEmpty || !blankNext c.rest then some (taken, c)
  else
    match plainSpace indent (c.rest.length + 1) .empty c with
    | none => none
    | some (s, c) =>
      if (c.column : Int) < indent then some (taken, c)
      else plainAfter indent false bound taken s c

theorem plainAfter_word {w rest taken : List Char} {s : Space} {c : Cursor} {indent : Int}
    {bound : Nat} (hw : isWord w = true) (hhash : w.head? ≠ some '#') (hc : c.rest = w ++ rest)
    (hmark : c.column = 0 → documentMarkNext c.rest = false) (hs : Stops rest) :
    plainAfter indent false (bound + 1) taken s c =
      plainEnd indent bound (w.reverse ++ (s.folded ++ taken)) (c.skip w.length) := by
  obtain ⟨d, w', rfl⟩ := List.exists_cons_of_ne_nil (isWord_iff.mp hw).1
  have hd : (c.rest.head? == some '#') = false := by simpa [hc] using hhash
  have hm : (c.column == 0 && documentMarkNext c.rest) = false := by
    by_cases hcol : c.column = 0
    · simp [hmark hcol]
    · simp [hcol]
  have hstarts : (!blankNext c.rest && plainNext false c.rest) = true := by
    rw [hc]
    exact plainNext_of_word hw
  rw [plainAfter]
  simp only [hd, hm, Bool.or_self, Bool.false_and, hstarts, if_true, Bool.false_eq_true, if_false]
  rw [plainRun_word (.inl hw) hc hs (by simp [hc])]
  simp only [Bool.not_false, Bool.true_and, decide_eq_true_eq]
  rfl

theorem plainEnd_gaps {gaps rest taken : List Char} {c : Cursor} {indent : Int} {bound : Nat}
    (hg : ∀ d ∈ gaps, isGap d = true) (hne : gaps ≠ []) (hc : c.rest = gaps ++ rest)
    (hr : blankNext rest = false) (hf : c.fresh = false) (hindent : indent ≤ 1) :
    plainEnd indent bound taken c =
      plainAfter indent false bound taken ⟨gaps.reverse, 0⟩ (c.skip gaps.length) := by
  obtain ⟨g, gs, rfl⟩ := List.exists_cons_of_ne_nil hne
  have hgap : isGap g = true := hg g (by simp)
  have hblank : blankNext c.rest = true := by simp [hc, blankNext_cons, hgap]
  have hempty : c.rest.isEmpty = false := by simp [hc]
  have hlen : (g :: gs).length < c.rest.length + 1 := by
    simp only [hc, List.length_append]
    omega
  have hcol : ¬ ((c.skip (g :: gs).length).column : Int) < indent := by
    simp only [Cursor.skip, List.length_cons]
    omega
  rw [plainEnd, hblank, hempty, Space.empty, plainSpace_gaps indent [] hg hc hr hf hlen]
  simp only [Bool.not_true, Bool.or_self, Bool.false_eq_true, if_false, hcol, List.append_nil]

/-- **The words of a plain scalar are read**, up to what follows them. -/
theorem plainAfter_words {more : List (List Char × List Char)} {w rest taken : List Char}
    {s : Space} {c : Cursor} {indent : Int} {bound : Nat} (hw : isWord w = true)
    (hhash : w.head? ≠ some '#') (hmore : more.all Written.follows = true)
    (hc : c.rest = w ++ Written.joined more ++ rest)
    (hmark : c.column = 0 → documentMarkNext c.rest = false) (hs : Stops rest)
    (hindent : indent ≤ 1) :
    plainAfter indent false (bound + more.length + 1) taken s c =
      plainEnd indent bound ((w ++ Written.joined more).reverse ++ (s.folded ++ taken))
        (c.skip (w ++ Written.joined more).length) := by
  induction more generalizing w taken s c with
  | nil =>
    simp only [Written.joined, List.flatMap_nil, List.append_nil, List.length_nil,
      Nat.add_zero] at hc ⊢
    exact plainAfter_word hw hhash hc hmark hs
  | cons p more ih =>
    obtain ⟨gaps, v⟩ := p
    obtain ⟨hp, hmore⟩ : Written.follows (gaps, v) = true ∧ more.all Written.follows = true := by
      simpa using hmore
    obtain ⟨hne, hgaps, hv, hvhash⟩ := Written.follows_iff.mp hp
    have hjoined : Written.joined ((gaps, v) :: more) = gaps ++ (v ++ Written.joined more) := by
      simp [Written.joined]
    have hnext : blankNext (v ++ Written.joined more ++ rest) = false := by
      obtain ⟨d, v', rfl⟩ := List.exists_cons_of_ne_nil (isWord_iff.mp hv).1
      simpa [blankNext_cons] using (isWord_iff.mp hv).2.1 d (by simp)
    have hstop : Stops (gaps ++ (v ++ Written.joined more ++ rest)) := by
      obtain ⟨g, gs, rfl⟩ := List.exists_cons_of_ne_nil hne
      exact .inl (by simp [blankNext_cons, hgaps g])
    rw [hjoined] at hc ⊢
    have hc' : c.rest = w ++ (gaps ++ (v ++ Written.joined more ++ rest)) := by
      simpa using hc
    have hrest := c.skip_rest hc'
    have hrest' := Cursor.skip_rest _ hrest
    have hwne : w.length ≠ 0 := by simpa using (isWord_iff.mp hw).1
    rw [List.length_cons, ← Nat.add_assoc, plainAfter_word hw hhash hc' hmark hstop,
      plainEnd_gaps hgaps hne hrest hnext (c.skip_fresh hwne) hindent,
      ih hv hvhash hmore hrest' fun h => absurd h (by simp only [Cursor.skip]; omega)]
    simp [Space.folded, Cursor.skip_skip, Nat.add_assoc]

/-- The scalar of words is read, and what follows decides where its reader stops. -/
theorem plain?_words {word rest : List Char} {more : List (List Char × List Char)} {c d : Cursor}
    {indent : Int} (h : (Written.plain word more).isValid = true)
    (hc : c.rest = (Written.plain word more).chars ++ rest)
    (hmark : c.column = 0 → documentMarkNext c.rest = false) (hs : Stops rest)
    (hindent : indent ≤ 1)
    (hend : ∀ bound taken, plainEnd indent (bound + 1) taken
      (c.skip (Written.plain word more).chars.length) = some (taken, d)) :
    plain? indent false c = some ((Written.plain word more).chars.reverse, d) := by
  obtain ⟨⟨hw, hbegins⟩, hmore⟩ :
      (isWord word = true ∧ beginsPlain word = true) ∧ more.all Written.follows = true := by
    simpa [Written.isValid] using h
  have hhash : word.head? ≠ some '#' := by
    cases word with
    | nil => simp
    | cons e word =>
      intro he
      obtain rfl : e = '#' := by simpa using he
      simp [beginsPlain, isIndicator] at hbegins
  have hlen := Written.length_le_joined hmore
  simp only [Written.chars] at hc hend ⊢
  obtain ⟨bound, hbound⟩ : ∃ bound, c.rest.length + 2 = bound + 1 + more.length + 1 := by
    refine ⟨c.rest.length - more.length, ?_⟩
    have : more.length ≤ c.rest.length := by
      simp only [hc, List.length_append]
      omega
    omega
  rw [plain?, hbound, plainAfter_words hw hhash hmore hc hmark hs hindent, hend]
  obtain ⟨e, w, rfl⟩ := List.exists_cons_of_ne_nil (isWord_iff.mp hw).1
  simp [Space.empty, Space.folded]

theorem plain?_before_colon (indent : Int) {word rest : List Char}
    {more : List (List Char × List Char)} {c : Cursor}
    (h : (Written.plain word more).isValid = true)
    (hc : c.rest = (Written.plain word more).chars ++ ':' :: rest)
    (hblank : blankNext rest = true) (hmark : c.column = 0 → documentMarkNext c.rest = false)
    (hindent : indent ≤ 1) :
    plain? indent false c = some ((Written.plain word more).chars.reverse,
      c.skip (Written.plain word more).chars.length) := by
  refine plain?_words h hc hmark (.inr (by simp [plainNext, hblank])) hindent fun bound taken => ?_
  rw [plainEnd, c.skip_rest hc]
  simp [blankNext_cons, isGap]

/-- A plain scalar ends before what lies between it and a token further to the left. -/
theorem plain?_before_token (indent : Int) {word rest : List Char}
    {more : List (List Char × List Char)} {c e : Cursor}
    (h : (Written.plain word more).isValid = true)
    (hc : c.rest = (Written.plain word more).chars ++ rest) (hblank : blankNext rest = true)
    (hmark : c.column = 0 → documentMarkNext c.rest = false) (hindent : indent ≤ 1)
    (hover : Over (c.skip (Written.plain word more).chars.length) e) (he : e.AtToken)
    (hleft : e.rest = [] ∨ (e.column : Int) < indent) :
    ∃ d, plain? indent false c = some ((Written.plain word more).chars.reverse, d) ∧ Over d e := by
  have hrest := c.skip_rest hc
  generalize hb : c.skip (Written.plain word more).chars.length = b at hover hrest
  by_cases hempty : rest = []
  · refine ⟨b, plain?_words h hc hmark (.inl hblank) hindent fun bound taken => ?_, hover⟩
    simp [plainEnd, hb, hrest, hempty]
  · obtain ⟨s, d, hspace, hd, hstop⟩ := plainSpace_of_over indent (s := .empty) hover he
      (Nat.lt_succ_self b.rest.length)
    refine ⟨d, plain?_words h hc hmark (.inl hblank) hindent fun bound taken => ?_, hd⟩
    rw [plainEnd, hb, hspace]
    simp only [hrest, hblank, List.isEmpty_iff, hempty, Bool.not_true, Bool.or_false, if_false]
    by_cases hcol : (d.column : Int) < indent
    · simp [hcol]
    · rw [if_neg hcol, plainAfter]
      rcases hstop with rfl | hhash
      · have hdone := hleft.resolve_right hcol
        simp [hdone, documentMarkNext, markNext, blankNext, lineEnds]
      · simp [hhash]

/-! ## Quoted scalars -/

/-- A piece of a quoted scalar is a character, a quote that is written twice, or an escape. -/
theorem spells_cases {mark d : Char} {spelling : List Char} (h : spells mark spelling d = true) :
    spelling = [d] ∧ d ≠ mark ∧ d ≠ '\n' ∧ ¬ (mark = '"' ∧ d = '\\') ∨
      mark = '\'' ∧ spelling = ['\'', '\''] ∧ d = '\'' ∨
      mark ≠ '\'' ∧ ∃ letter, spelling = ['\\', letter] ∧ escapeLetter? letter = some d := by
  unfold spells at h
  split at h
  · left
    simp only [Bool.and_eq_true, beq_iff_eq, bne_iff_ne, Bool.not_eq_true', Bool.and_eq_false_iff,
      beq_eq_false_iff_ne] at h
    obtain ⟨⟨⟨rfl, hne⟩, hbreak⟩, hback⟩ := h
    exact ⟨rfl, hne, hbreak, fun hb => hback.elim (· hb.1) (· hb.2)⟩
  · right
    split at h
    · left
      simp_all
    · right
      simp_all
  · cases h

/-- The piece is a gap. -/
def isGapPiece (p : List Char × Char) : Bool := gapNext p.1

theorem quotedRun_piece {mark d : Char} {spelling rest taken : List Char} {c : Cursor}
    {bound : Nat} (hm : mark = '\'' ∨ mark = '"') (h : spells mark spelling d = true)
    (hgap : gapNext spelling = false) (hc : c.rest = spelling ++ rest) :
    quotedRun mark (bound + 1) taken c =
      quotedRun mark bound (d :: taken) (c.skip spelling.length) := by
  rcases spells_cases h with ⟨rfl, hne, hbreak, hback⟩ | ⟨rfl, rfl, rfl⟩ | ⟨hne, letter, rfl, hl⟩
  · rw [List.singleton_append] at hc
    have hblank : blankNext c.rest = false := by
      rw [hc, blankNext_cons]
      simpa [gapNext] using ⟨hgap, hbreak⟩
    rw [quotedRun, hblank]
    simp only [hc, Bool.false_eq_true, if_false]
    rcases hm with rfl | rfl
    · simp only [beq_self_eq_true, if_true]
      split <;> simp_all
    · split <;> simp_all
  · have hblank : blankNext c.rest = false := by
      rw [hc]
      rfl
    rw [quotedRun, hblank, hc]
    rfl
  · obtain rfl := hm.resolve_left hne
    have hblank : blankNext c.rest = false := by
      rw [hc]
      rfl
    have hletter : letter ≠ '\n' := by
      rintro rfl
      cases hl
    have hescape : escape? (c.skip 1) = some (d, c.skip 2) := by
      have hrest : (c.skip 1).rest = letter :: rest := by simp [Cursor.skip, hc]
      rw [escape?, hrest]
      simp only [hl, Cursor.skip_skip]
    rw [quotedRun, hblank]
    simp only [hc, List.cons_append, List.nil_append]
    split <;> simp_all

/-- The closing mark comes next. A second quote would make it a piece. -/
def closes (mark : Char) (rest : List Char) : Prop :=
  ∃ after, rest = mark :: after ∧ (mark = '\'' → after.head? ≠ some '\'')

/-- The pieces up to a gap or the closing mark. -/
theorem quotedRun_pieces {mark : Char} {pieces : List (List Char × Char)} {rest taken : List Char}
    {c : Cursor} {bound : Nat} (hm : mark = '\'' ∨ mark = '"')
    (hp : ∀ p ∈ pieces, spells mark p.1 p.2 = true ∧ isGapPiece p = false)
    (hc : c.rest = pieces.flatMap Prod.fst ++ rest)
    (hrest : closes mark rest ∨ gapNext rest = true) (hb : pieces.length < bound) :
    quotedRun mark bound taken c =
      some ((pieces.map Prod.snd).reverse ++ taken, c.skip (pieces.flatMap Prod.fst).length,
        false) := by
  induction pieces generalizing taken c bound with
  | nil =>
    obtain ⟨bound, rfl⟩ := Nat.exists_eq_succ_of_ne_zero (Nat.ne_zero_of_lt hb)
    rw [List.flatMap_nil, List.nil_append] at hc
    simp only [List.map_nil, List.reverse_nil, List.nil_append, List.flatMap_nil, List.length_nil,
      Cursor.skip_zero]
    rw [quotedRun, hc]
    rcases hrest with ⟨after, rfl, hafter⟩ | hgap
    · rcases hm with rfl | rfl
      · have hblank : blankNext ('\'' :: after) = false := rfl
        simp only [hblank, Bool.false_eq_true, if_false, beq_self_eq_true, if_true]
        split
        · simp_all
        · rfl
        · rename_i hother h
          exact absurd (List.cons.inj h).1.symm hother
        · rename_i h
          cases h
      · rfl
    · simp [blankNext, hgap]
  | cons p pieces ih =>
    obtain ⟨bound, rfl⟩ := Nat.exists_eq_succ_of_ne_zero (Nat.ne_zero_of_lt hb)
    obtain ⟨⟨hspell, hgap⟩, hpieces⟩ := List.forall_mem_cons.mp hp
    rw [List.flatMap_cons, List.append_assoc] at hc
    rw [quotedRun_piece hm hspell hgap hc, ih hpieces (c.skip_rest hc) (by simpa using hb),
      Cursor.skip_skip]
    simp

theorem quotedSpace_gaps (indent : Int) (before : List Char) {gaps rest : List Char} {c : Cursor}
    {bound : Nat} (hg : ∀ d ∈ gaps, isGap d = true) (hc : c.rest = gaps ++ rest)
    (hr : blankNext rest = false) (hf : c.fresh = false) (hb : gaps.length < bound) :
    quotedSpace indent bound ⟨before, 0⟩ c =
      some (⟨gaps.reverse ++ before, 0⟩, c.skip gaps.length) := by
  induction gaps generalizing c bound before with
  | nil =>
    obtain ⟨bound, rfl⟩ := Nat.exists_eq_succ_of_ne_zero (Nat.ne_zero_of_lt hb)
    rw [List.nil_append] at hc
    subst hc
    rw [quotedSpace]
    split
    · rename_i h; simp [h, blankNext_cons, isGap] at hr
    · rename_i h; simp [h, blankNext_cons, isGap] at hr
    · rename_i h; simp [h, blankNext_cons, isGap] at hr
    · simp [Cursor.skip_zero]
  | cons d gaps ih =>
    obtain ⟨bound, rfl⟩ := Nat.exists_eq_succ_of_ne_zero (Nat.ne_zero_of_lt hb)
    obtain ⟨hd, hgaps⟩ := List.forall_mem_cons.mp hg
    have hstep : quotedSpace indent (bound + 1) ⟨before, 0⟩ c =
        quotedSpace indent bound ⟨d :: before, 0⟩ (c.skip 1) := by
      have hd : d = ' ' ∨ d = '\t' := by simpa [isGap] using hd
      rw [quotedSpace, hc, ← Cursor.afterGap_eq_skip hf]
      rcases hd with rfl | rfl <;> simp [Space.gap]
    rw [hstep, ih _ hgaps (by simp [Cursor.skip, hc]) (Cursor.skip_fresh _ (by decide))
      (by simpa using hb), Cursor.skip_skip]
    simp [Nat.add_comm 1]

theorem eq_of_isGapPiece {mark : Char} {p : List Char × Char} (h : spells mark p.1 p.2 = true)
    (hgap : isGapPiece p = true) : p.1 = [p.2] ∧ isGap p.2 = true := by
  rcases spells_cases h with ⟨hs, -⟩ | ⟨-, hs, -⟩ | ⟨-, letter, hs, -⟩ <;>
    rw [isGapPiece, hs] at hgap
  · exact ⟨hs, hgap⟩
  · cases hgap
  · cases hgap

theorem flatMap_gapPieces {mark : Char} {pieces : List (List Char × Char)}
    (h : ∀ p ∈ pieces, spells mark p.1 p.2 = true ∧ isGapPiece p = true) :
    pieces.flatMap Prod.fst = pieces.map Prod.snd := by
  induction pieces with
  | nil => rfl
  | cons p pieces ih =>
    obtain ⟨⟨hs, hg⟩, hpieces⟩ := List.forall_mem_cons.mp h
    rw [List.flatMap_cons, List.map_cons, (eq_of_isGapPiece hs hg).1, ih hpieces]
    rfl

theorem not_blank_of_pieces {mark : Char} {pieces : List (List Char × Char)} {rest : List Char}
    (hm : mark = '\'' ∨ mark = '"') (h : ∀ p ∈ pieces, spells mark p.1 p.2 = true)
    (hhead : ∀ p ∈ pieces.head?, isGapPiece p = false) (hrest : closes mark rest) :
    blankNext (pieces.flatMap Prod.fst ++ rest) = false := by
  cases pieces with
  | nil =>
    obtain ⟨after, rfl, -⟩ := hrest
    rcases hm with rfl | rfl <;> rfl
  | cons p pieces =>
    have hgap : isGapPiece p = false := hhead p rfl
    rcases spells_cases (h p (by simp)) with ⟨hs, -, hbreak, -⟩ | ⟨-, hs, -⟩ | ⟨-, _, hs, -⟩ <;>
      simp only [List.flatMap_cons, hs, List.cons_append, List.nil_append, blankNext_cons]
    · rw [isGapPiece, hs] at hgap
      simpa using ⟨hgap, hbreak⟩
    · rfl
    · rfl

theorem length_le_flatMap {mark : Char} {pieces : List (List Char × Char)}
    (hp : ∀ p ∈ pieces, spells mark p.1 p.2 = true) :
    pieces.length ≤ (pieces.flatMap Prod.fst).length := by
  induction pieces with
  | nil => simp
  | cons p pieces ih =>
    obtain ⟨hspell, hpieces⟩ := List.forall_mem_cons.mp hp
    have hne : p.1.length ≠ 0 := by
      rcases spells_cases hspell with ⟨hs, -⟩ | ⟨-, hs, -⟩ | ⟨-, letter, hs, -⟩ <;> simp [hs]
    have := ih hpieces
    simp only [List.length_cons, List.flatMap_cons, List.length_append]
    omega

theorem exists_span {α : Type} (p : α → Bool) (l : List α) :
    ∃ run tail, l = run ++ tail ∧ (∀ x ∈ run, p x = true) ∧ ∀ x ∈ tail.head?, p x = false := by
  induction l with
  | nil => exact ⟨[], [], rfl, by simp, by simp⟩
  | cons a l ih =>
    cases ha : p a with
    | false => exact ⟨[], a :: l, rfl, by simp, by simp [ha]⟩
    | true =>
      obtain ⟨run, tail, rfl, hrun, htail⟩ := ih
      exact ⟨a :: run, tail, rfl, List.forall_mem_cons.mpr ⟨ha, hrun⟩, htail⟩

/-- Pieces begin with some that are no gaps, behind which gaps come, unless the scalar ends. -/
theorem exists_run (pieces : List (List Char × Char)) :
    ∃ run gaps others, pieces = run ++ (gaps ++ others) ∧ (∀ p ∈ run, isGapPiece p = false) ∧
      (∀ p ∈ gaps, isGapPiece p = true) ∧ (∀ p ∈ others.head?, isGapPiece p = false) ∧
      (gaps = [] → others = []) := by
  obtain ⟨run, tail, rfl, hrun, htail⟩ := exists_span (!isGapPiece ·) pieces
  obtain ⟨gaps, others, rfl, hgaps, hothers⟩ := exists_span isGapPiece tail
  refine ⟨run, gaps, others, rfl, fun p hp => by simpa using hrun p hp, hgaps, hothers, ?_⟩
  rintro rfl
  cases others with
  | nil => rfl
  | cons p others =>
    have hgap : isGapPiece p = true := by simpa using htail p rfl
    exact absurd (hothers p rfl) (by simp [hgap])

section Steps

variable (indent : Int) (taken : List Char) {mark : Char} {run : List (List Char × Char)}
  {gaps rest : List Char} {c : Cursor} {bound : Nat}

theorem length_run_lt (hp : ∀ p ∈ run, spells mark p.1 p.2 = true ∧ isGapPiece p = false)
    (hc : c.rest = run.flatMap Prod.fst ++ rest) : run.length < c.rest.length + 1 := by
  have := length_le_flatMap fun p hmem => (hp p hmem).1
  simp only [hc, List.length_append]
  omega

theorem quotedAfter_closed (hm : mark = '\'' ∨ mark = '"')
    (hp : ∀ p ∈ run, spells mark p.1 p.2 = true ∧ isGapPiece p = false)
    (hc : c.rest = run.flatMap Prod.fst ++ rest) (hrest : closes mark rest)
    (hcol : c.column ≠ 0) (hindent : indent ≤ c.column) :
    quotedAfter indent mark (bound + 1) taken c =
      some ((run.map Prod.snd).reverse ++ taken,
        c.skip ((run.flatMap Prod.fst).length + 1)) := by
  have hclosed := c.skip_rest hc
  have hlen := length_run_lt hp hc
  have hleft : ¬ (c.column : Int) < indent := by omega
  have hempty : c.rest.isEmpty = false := by
    obtain ⟨after, rfl, -⟩ := hrest
    simp [hc]
  rw [quotedAfter, quotedRun_pieces hm hp hc (.inl hrest) hlen]
  obtain ⟨after, rfl, -⟩ := hrest
  simp only [hempty, beq_eq_false_iff_ne.mpr hcol, Bool.false_and, Bool.or_self,
    Bool.false_eq_true, if_false, hleft, hclosed, List.head?_cons, beq_self_eq_true, if_true,
    Cursor.skip_skip]

theorem quotedAfter_gaps (hm : mark = '\'' ∨ mark = '"')
    (hp : ∀ p ∈ run, spells mark p.1 p.2 = true ∧ isGapPiece p = false)
    (hg : ∀ d ∈ gaps, isGap d = true) (hne : gaps ≠ [])
    (hc : c.rest = run.flatMap Prod.fst ++ (gaps ++ rest)) (hr : blankNext rest = false)
    (hcol : c.column ≠ 0) (hindent : indent ≤ c.column) (hfresh : c.fresh = false) :
    quotedAfter indent mark (bound + 1) taken c =
      quotedAfter indent mark bound (gaps.reverse ++ ((run.map Prod.snd).reverse ++ taken))
        (c.skip ((run.flatMap Prod.fst).length + gaps.length)) := by
  obtain ⟨g, gs, rfl⟩ := List.exists_cons_of_ne_nil hne
  have hgap : isGap g = true := hg g (by simp)
  have hmark : g ≠ mark := by
    rintro rfl
    rcases hm with rfl | rfl <;> cases hgap
  have hlen := length_run_lt hp hc
  have hleft : ¬ (c.column : Int) < indent := by omega
  have hempty : c.rest.isEmpty = false := by simp [hc]
  have hbehind := c.skip_rest hc
  have hopen : ((c.skip (run.flatMap Prod.fst).length).rest.head? == some mark) = false := by
    rw [hbehind, List.cons_append, List.head?_cons]
    simpa using hmark
  have hgapsLen : (g :: gs).length < (c.skip (run.flatMap Prod.fst).length).rest.length + 1 := by
    simp only [hbehind, List.length_append]
    omega
  have hspace := quotedSpace_gaps indent [] hg hbehind hr
    (by simp [Cursor.skip, hfresh]) hgapsLen
  rw [quotedAfter, quotedRun_pieces hm hp hc (.inr hgap) hlen]
  simp only [hempty, beq_eq_false_iff_ne.mpr hcol, Bool.false_and, Bool.or_self,
    Bool.false_eq_true, if_false, hleft, hopen, Space.empty, hspace, Space.folded]
  rw [List.append_nil, Cursor.skip_skip]

end Steps

/-- **The pieces of a quoted scalar are read**, with its closing mark. Each round takes the pieces
up to the next gap, and the gaps behind them. -/
theorem quotedAfter_pieces (indent : Int) (taken : List Char) {mark : Char}
    {pieces : List (List Char × Char)} {rest : List Char} {c : Cursor} {bound : Nat}
    (hm : mark = '\'' ∨ mark = '"') (hp : ∀ p ∈ pieces, spells mark p.1 p.2 = true)
    (hc : c.rest = pieces.flatMap Prod.fst ++ rest) (hrest : closes mark rest)
    (hcol : c.column ≠ 0) (hindent : indent ≤ c.column) (hfresh : c.fresh = false)
    (hb : pieces.length < bound) :
    quotedAfter indent mark bound taken c =
      some ((pieces.map Prod.snd).reverse ++ taken,
        c.skip ((pieces.flatMap Prod.fst).length + 1)) := by
  induction hn : pieces.length using Nat.strongRecOn generalizing pieces taken c bound with
  | _ n ih =>
    obtain ⟨bound, rfl⟩ := Nat.exists_eq_succ_of_ne_zero (Nat.ne_zero_of_lt hb)
    obtain ⟨run, gaps, others, rfl, hrun, hgaps, hothers, hlast⟩ := exists_run pieces
    obtain ⟨hprun, hptail⟩ := List.forall_mem_append.mp hp
    obtain ⟨hpgaps, hpothers⟩ := List.forall_mem_append.mp hptail
    have hprun' : ∀ p ∈ run, spells mark p.1 p.2 = true ∧ isGapPiece p = false := fun p hmem =>
      ⟨hprun p hmem, hrun p hmem⟩
    by_cases hne : gaps = []
    · obtain rfl := hne
      obtain rfl := hlast rfl
      rw [List.nil_append, List.append_nil] at hc ⊢
      exact quotedAfter_closed indent taken hm hprun' hc hrest hcol hindent
    · have hpgaps' : ∀ p ∈ gaps, spells mark p.1 p.2 = true ∧ isGapPiece p = true := fun p hmem =>
        ⟨hpgaps p hmem, hgaps p hmem⟩
      have hg : ∀ d ∈ gaps.map Prod.snd, isGap d = true := by
        intro d hd
        obtain ⟨q, hq, rfl⟩ := List.mem_map.mp hd
        exact (eq_of_isGapPiece (hpgaps q hq) (hgaps q hq)).2
      have hchars := flatMap_gapPieces hpgaps'
      rw [List.flatMap_append, List.flatMap_append, List.append_assoc, List.append_assoc,
        hchars] at hc
      have hothersRest := Cursor.skip_rest _ (c.skip_rest hc)
      have hpos := List.length_pos_iff.mpr hne
      simp only [List.length_append] at hb hn
      have hfewer : others.length < n := by omega
      rw [Cursor.skip_skip, List.length_map] at hothersRest
      rw [quotedAfter_gaps indent taken hm hprun' hg (by simpa using hne) hc
        (not_blank_of_pieces hm hpothers hothers hrest) hcol hindent hfresh, List.length_map,
        ih others.length hfewer _ hpothers hothersRest (by simp only [Cursor.skip]; omega)
          (by simp only [Cursor.skip]; omega) (by simp [Cursor.skip, hfresh]) (by omega) rfl]
      simp only [hchars, List.flatMap_append, List.map_append, List.reverse_append,
        List.append_assoc, Cursor.skip_skip, List.length_append, List.length_map, Nat.add_assoc]

end RecordFilter.Yaml
