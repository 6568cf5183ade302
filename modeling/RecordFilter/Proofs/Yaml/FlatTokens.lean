import Mathlib.Data.List.TakeWhile
import RecordFilter.Proofs.Yaml.Entries

/-!
# Scanning a flat text

Entry after entry the scanner of a flat text reads two tokens or three, and puts the tokens of the
mapping around them. Whatever else stands in the text, blank lines, comments and spaces, leaves no
token.

* `readAll?_entry`: one entry, with the way to it and the way behind it;
* `readAll?_lines`: all lines, by induction on them;
* `tokens?_text`: the tokens of a flat text.
-/

namespace RecordFilter.Yaml

open Cursor (Over AtToken over_spaces)

namespace Line

/-- The tokens of an entry. -/
def entryTokens (key : Written) (value : Option (Nat × Written)) : List Token :=
  .key :: key.token :: .value :: (value.map fun v => v.2.token).toList

/-- The tokens with those of the lines behind them. -/
def after (tokens : List Token) : List Line → List Token
  | [] => tokens
  | .blank _ :: rest => after tokens rest
  | .entry key value _ :: rest => after (Layout.opening tokens ++ entryTokens key value) rest

theorem fromEntry_entry {key : Written} {value : Option (Nat × Written)} {trailer : Trailer}
    {rest : List Line} :
    fromEntry (.entry key value trailer :: rest) = .entry key value trailer :: rest := rfl

theorem length_text_le_more (lines : List Line) : (text lines).length ≤ (more lines).length := by
  cases lines with
  | nil => exact Nat.le_refl _
  | cons x rest => exact Nat.le_succ _

theorem length_text_fromEntry_le (lines : List Line) :
    (text (fromEntry lines)).length ≤ (text lines).length := by
  induction lines with
  | nil => exact Nat.le_refl _
  | cons x rest ih =>
    cases x with
    | blank trailer =>
      have hfrom : fromEntry (.blank trailer :: rest) = fromEntry rest := rfl
      have hmore := length_text_le_more rest
      rw [hfrom, text_cons, List.length_append]
      omega
    | entry key value trailer => exact Nat.le_refl _

end Line

namespace Layout

variable {c d : Cursor} {tokens : List Token} {indent : Int} {indents : List Indent}
  {allowed : Bool} {key : PossibleKey} {adjacent : Nat}

/-- The scanner moves to the next token, leaves what ends before it and reads it. -/
theorem readAll?_token {bound : Nat} {l l' l'' : Layout} {e : Char} {rest : List Char}
    (ht : l.toToken? (l.cursor.rest.length + 1) = some l') (hk : l'.dropStale? = some l')
    (hu : l'.unroll l'.cursor.column = l'') (hc : l''.cursor.rest = e :: rest) :
    l.readAll? (bound + 1) = (l''.readNext? e rest).bind (readAll? bound ·) := by
  rw [readAll?, ht, Option.bind_some, hk]
  simp only [hu]
  split
  · rename_i h
    rw [hc] at h
    cases h
  · rename_i e' rest' h
    rw [hc] at h
    obtain ⟨rfl, rfl⟩ := List.cons.inj h
    cases l''.readNext? e rest <;> rfl

theorem readAll?_end {bound : Nat} (hover : Over c d) (hd : d.rest = [])
    (hs : Standing tokens indent indents) (hk : key.possible = false) :
    (outside c tokens indent indents allowed key adjacent).readAll? (bound + 1) =
      some (closing tokens) := by
  have hat : d.AtToken := by simp [AtToken, hd]
  obtain ⟨allowed', ht, -⟩ := outside_toToken? tokens indent indents allowed key adjacent hover hat
    (Nat.lt_succ_self _)
  obtain ⟨indent', indents', hu, hs', -⟩ :=
    outside_unroll_cases d allowed' key adjacent hs d.column
  rw [readAll?, outside_cursor, ht, Option.bind_some, outside_dropStale? (by simp [hk])]
  simp only [outside_cursor, hu, hd]
  exact outside_finish? hs' hk

variable (adjacent) in
theorem readAll?_key {w : Written} {rest : List Char} (hover : Over c d) (hd : d.AtToken)
    (hw : w.isValid = true) (hrest : d.rest = w.chars ++ ':' :: rest)
    (hblank : blankNext rest = true) (hdocument : documentMarkNext d.rest = false)
    (hcol : d.column = 0) (hfresh : d.fresh = true) (hs : Standing tokens indent indents)
    (hk : key.possible = false) (hready : c.fresh = true → allowed = true) :
    ∃ indent' indents' allowed' required adjacent', Standing tokens indent' indents' ∧
      indent' ≤ 0 ∧ ∀ bound,
        (outside c tokens indent indents allowed key adjacent).readAll? (bound + 1) =
          (outside (d.skip w.chars.length) (tokens ++ [w.token]) indent' indents' allowed'
            ⟨true, required, tokens.length, d.index, d.line, 0⟩ adjacent').readAll? bound := by
  obtain ⟨allowed₁, ht, hallowed, -⟩ :=
    outside_toToken? tokens indent indents allowed key adjacent hover hd (Nat.lt_succ_self _)
  obtain rfl := hallowed hready hfresh
  obtain ⟨indent', indents', hu, hs', hindent⟩ :=
    outside_unroll_cases d true key adjacent hs d.column
  obtain ⟨e, cs, allowed', adjacent', hcs, hread⟩ :=
    outside_key true key adjacent hw hs' (hindent hcol) hrest hblank hdocument
  refine ⟨indent', indents', allowed',
    indent' == (d.column : Int) && (indents'.head?.map Indent.block).getD false, adjacent', hs',
    hindent hcol, fun bound => ?_⟩
  rw [readAll?_token ht (outside_dropStale? (by simp [hk])) hu hcs, hread, noted, if_pos rfl, hcol]
  rfl

variable (allowed adjacent) in
theorem readAll?_colon (s : Token) (required : Bool) {index : Nat} {rest : List Char}
    (hc : c.rest = ':' :: rest) (hblank : blankNext rest = true) (htab : rest.head? ≠ some '\t')
    (hcol : c.column ≠ 0) (hindex : c.index ≤ index + 1024) (hs : Standing tokens indent indents)
    (hindent : indent ≤ 0) :
    ∃ key', key'.possible = false ∧ ∀ bound,
      (outside c (tokens ++ [s]) indent indents allowed
          ⟨true, required, tokens.length, index, c.line, 0⟩ adjacent).readAll? (bound + 1) =
        (outside (c.skip 1) (opening tokens ++ [.key, s, .value]) 1 [⟨0, false⟩, ⟨-1, true⟩]
          false key' adjacent).readAll? bound := by
  have hcolumn : indent ≤ c.column := by omega
  have hcolon : overColon? c = some (c.skip 1) := by
    have hskip : (c.skip 1).rest = rest := by simp [Cursor.skip, hc]
    rw [overColon?, hskip]
    split
    · simp at htab
    · rfl
  obtain ⟨key', hkey', hread⟩ :=
    outside_readValue? allowed adjacent s required index c.line hs hindent hcolon
  have hat : c.AtToken := by simp [AtToken, hc]
  obtain ⟨allowed', ht, -, hsame⟩ := outside_toToken? (tokens ++ [s]) indent indents allowed
    ⟨true, required, tokens.length, index, c.line, 0⟩ adjacent (.refl c) hat (Nat.lt_succ_self _)
  obtain rfl := hsame rfl
  refine ⟨key', hkey', fun bound => ?_⟩
  rw [readAll?_token ht (outside_dropStale? fun _ => ⟨Nat.le_refl _, hindex⟩)
    (outside_unroll hcolumn) hc, readNext?_eq (fun h => absurd h hcol) hcolumn,
    readToken?_colon hblank, hread]
  rfl

variable (tokens adjacent) in
theorem readAll?_value {w : Written} {rest : List Char} {spaces : Nat} {f : Cursor}
    (hw : w.isValid = true)
    (hc : c.rest = List.replicate (spaces + 1) ' ' ++ (w.chars ++ rest))
    (hk : key.possible = false) (hblank : blankNext rest = true)
    (hover : Over ((c.skipGaps (spaces + 1)).skip w.chars.length) f)
    (ht : ((c.skipGaps (spaces + 1)).skip w.chars.length).overTrailer? = some f)
    (hends : lineEnds f.rest = true) (hf : f.fresh = false) (hd : Over f d) (hat : d.AtToken)
    (hleft : d.rest ≠ [] → d.column = 0) :
    ∃ g indent' indents' allowed' adjacent', Standing (tokens ++ [w.token]) indent' indents' ∧
      Over g d ∧ (g.fresh = true → allowed' = true) ∧ ∀ bound,
        (outside c tokens 1 [⟨0, false⟩, ⟨-1, true⟩] false key adjacent).readAll? (bound + 1) =
          (outside g (tokens ++ [w.token]) indent' indents' allowed' key adjacent').readAll?
            bound := by
  have hgaps : (c.skipGaps (spaces + 1)).rest = w.chars ++ rest := by
    simp [Cursor.skipGaps, Cursor.skip, hc]
  have hcol : (c.skipGaps (spaces + 1)).column ≠ 0 := by simp [Cursor.skipGaps, Cursor.skip]
  have htoken : (c.skipGaps (spaces + 1)).AtToken := by
    obtain ⟨e, tail, hchars, hne⟩ := Written.exists_head hw
    simpa [AtToken, hgaps, hchars] using hne
  obtain ⟨allowed', htok, -, hsame⟩ := outside_toToken? tokens 1 [⟨0, false⟩, ⟨-1, true⟩] false key
    adjacent (over_spaces hc) htoken (Nat.lt_succ_self _)
  obtain rfl := hsame rfl
  obtain ⟨e, cs, g, indent', indents', allowed', adjacent', hcs, hread, hs', hg, hready⟩ :=
    outside_value tokens key adjacent hw hcol hgaps hblank hover ht hends hf hd hat hleft
  refine ⟨g, indent', indents', allowed', adjacent', hs', hg, hready, fun bound => ?_⟩
  have hcolumn : (1 : Int) ≤ (c.skipGaps (spaces + 1)).column := by omega
  rw [readAll?_token htok (outside_dropStale? (by simp [hk])) (outside_unroll hcolumn) hcs, hread]
  rfl

/-! ## Entries -/

/-- **The scanner is between two entries**: the tokens are read, and only what lies between tokens
comes before the rest. -/
inductive Ready (tokens : List Token) (rest : List Char) : Layout → Prop
  | intro {c d : Cursor} {indent : Int} {indents : List Indent} {allowed : Bool}
      {key : PossibleKey} {adjacent : Nat} (standing : Standing tokens indent indents)
      (unkeyed : key.possible = false) (allows : c.fresh = true → allowed = true)
      (way : Over c d) (token : d.AtToken) (remains : d.rest = rest)
      (left : d.rest ≠ [] → d.column = 0 ∧ d.fresh = true) :
      Ready tokens rest (outside c tokens indent indents allowed key adjacent)

theorem markNext_before_colon {mark : Char} (hm : mark ≠ ':') {cs : List Char}
    (h : markNext mark cs = false) (rest : List Char) :
    markNext mark (cs ++ ':' :: rest) = false := by
  have hcolon : (':' == mark) = false := by simpa using hm.symm
  match cs with
  | [] => rcases rest with _ | ⟨a, _ | ⟨b, rest⟩⟩ <;> simp [markNext, hcolon]
  | [a] => cases rest <;> simp [markNext, hcolon]
  | [a, b] => simp [markNext, hcolon]
  | [a, b, d] => simp [markNext, blankNext_cons, isGap]
  | a :: b :: d :: e :: cs => simpa [markNext, blankNext_cons] using h

theorem documentMarkNext_before_colon {cs : List Char} (h : documentMarkNext cs = false)
    (rest : List Char) : documentMarkNext (cs ++ ':' :: rest) = false := by
  obtain ⟨hdash, hdot⟩ : markNext '-' cs = false ∧ markNext '.' cs = false := by
    simpa [documentMarkNext] using h
  simp [documentMarkNext, markNext_before_colon (by decide) hdash,
    markNext_before_colon (by decide) hdot]

/-- A blank that is no tab stands behind what a trailer is apart from. -/
theorem blankNext_trailer {t : Trailer} (h : t.isApart = true) {rest : List Char}
    (hrest : lineEnds rest = true) :
    blankNext (t.chars ++ rest) = true ∧ (t.chars ++ rest).head? ≠ some '\t' := by
  cases hs : t.spaces with
  | succ n => simp [Trailer.chars, hs, List.replicate_succ, blankNext_cons, isGap]
  | zero =>
    have hnone : t.comment = none := by simpa [Trailer.isApart, hs] using h
    have hchars : t.chars = [] := by simp [Trailer.chars, hs, hnone, Trailer.commentChars]
    rw [hchars, List.nil_append]
    cases rest with
    | nil => exact ⟨rfl, by simp⟩
    | cons d rest =>
      obtain rfl : d = '\n' := by simpa [lineEnds] using hrest
      exact ⟨rfl, by simp⟩

theorem readAll?_keyColon {w : Written} {rest : List Char} {l : Layout} (hw : w.isValid = true)
    (hlen : w.chars.length ≤ Line.maxKey) (hdocument : documentMarkNext w.chars = false)
    (hblank : blankNext rest = true) (htab : rest.head? ≠ some '\t')
    (h : Ready tokens (w.chars ++ ':' :: rest) l) :
    ∃ c key adjacent, c.rest = rest ∧ c.fresh = false ∧ key.possible = false ∧ ∀ bound,
      l.readAll? (bound + 2) =
        (outside c (opening tokens ++ [.key, w.token, .value]) 1 [⟨0, false⟩, ⟨-1, true⟩] false
          key adjacent).readAll? bound := by
  obtain ⟨hs, hk, hready, hover, hd, hrest, hleft⟩ := h
  rename_i c d indent indents allowed key adjacent
  obtain ⟨hcol, hfresh⟩ := hleft (by simp [hrest])
  obtain ⟨e, tail, hhead, -⟩ := Written.exists_head hw
  have hbehind : (d.skip w.chars.length).rest = ':' :: rest := d.skip_rest hrest
  obtain ⟨indent', indents', allowed', required, adjacent', hs', hindent', hkey⟩ :=
    readAll?_key adjacent hover hd hw hrest hblank
      (hrest ▸ documentMarkNext_before_colon hdocument rest) hcol hfresh hs hk hready
  obtain ⟨key', hk', hcolon⟩ := readAll?_colon allowed' adjacent' w.token required hbehind hblank
    htab (by simp [Cursor.skip, hcol, hhead]) (Nat.add_le_add_left hlen _) hs' hindent'
  exact ⟨(d.skip w.chars.length).skip 1, key', adjacent', by simp [Cursor.skip, hrest],
    Cursor.skip_fresh _ (by decide), hk', fun bound => (hkey (bound + 1)).trans (hcolon bound)⟩

/-- **One entry**, with the way to it and the way behind it. -/
theorem readAll?_entry {w : Written} {value : Option (Nat × Written)} {trailer : Trailer}
    {rest : List Line} {l : Layout} (hx : (Line.entry w value trailer).isValid = true)
    (hrest : ∀ x ∈ rest, x.isValid = true)
    (h : Ready tokens (Line.text (.entry w value trailer :: rest)) l) :
    ∃ n l', n ≤ (Line.entry w value trailer).chars.length ∧
      Ready (opening tokens ++ Line.entryTokens w value) (Line.text (Line.fromEntry rest)) l' ∧
      ∀ bound, l.readAll? (bound + n) = l'.readAll? bound := by
  obtain ⟨⟨⟨⟨⟨hw, hlen⟩, hdocument⟩, hvalue⟩, htrailer⟩, hapart⟩ :
      ((((w.isValid = true ∧ w.chars.length ≤ Line.maxKey) ∧ documentMarkNext w.chars = false) ∧
        value.all (fun v => v.2.isValid) = true) ∧ trailer.isValid = true) ∧
        trailer.isApart = true := by
    simpa [Line.isValid] using hx
  obtain ⟨e, tail, hhead, -⟩ := Written.exists_head hw
  obtain ⟨hblank, htab⟩ := blankNext_trailer hapart (Line.lineEnds_more rest)
  cases value with
  | none =>
    have htext : Line.text (.entry w none trailer :: rest) =
        w.chars ++ ':' :: (trailer.chars ++ Line.more rest) := by
      simp [Line.text_cons, Line.chars, Line.valueChars]
    obtain ⟨c, key', adjacent', hc, hfresh, hk', hsteps⟩ :=
      readAll?_keyColon hw hlen hdocument hblank htab (htext ▸ h)
    obtain ⟨f, hf, hfr, -⟩ := over_trailer htrailer hc (Line.lineEnds_more rest)
    obtain ⟨g, hg, hat, hgr, hgleft⟩ := over_more hrest hfr
    refine ⟨2, _, ?_, ?_, hsteps⟩
    · simp only [Line.chars, Line.valueChars, hhead, List.length_append, List.length_cons]
      omega
    · exact .intro (.value (opening_append_ne_nil _ _)) hk' (by simp [hfresh]) (hf.trans hg) hat
        hgr hgleft
  | some v =>
    obtain ⟨spaces, v⟩ := v
    have hv : v.isValid = true := by simpa using hvalue
    obtain ⟨e', tail', hhead', -⟩ := Written.exists_head hv
    have htext : Line.text (.entry w (some (spaces, v)) trailer :: rest) =
        w.chars ++ ':' :: (List.replicate (spaces + 1) ' ' ++
          (v.chars ++ (trailer.chars ++ Line.more rest))) := by
      simp [Line.text_cons, Line.chars, Line.valueChars]
    obtain ⟨c, key', adjacent', hc, -, hk', hsteps⟩ := readAll?_keyColon hw hlen hdocument
      (by simp [List.replicate_succ, blankNext_cons, isGap]) (by simp [List.replicate_succ])
      (htext ▸ h)
    have hafter : ((c.skipGaps (spaces + 1)).skip v.chars.length).rest =
        trailer.chars ++ Line.more rest :=
      Cursor.skip_rest _ (by simp [Cursor.skipGaps, Cursor.skip, hc])
    obtain ⟨f, hf, hfr, hffresh, hfends⟩ := over_trailer htrailer hafter (Line.lineEnds_more rest)
    obtain ⟨g, hg, hat, hgr, hgleft⟩ := over_more hrest hfr
    obtain ⟨g', indent', indents', allowed', adjacent', hs', hover', hready', hstep⟩ :=
      readAll?_value (opening tokens ++ [.key, w.token, .value]) adjacent' hv hc hk' hblank
        hf (hfends hapart).1 (hfr ▸ Line.lineEnds_more rest)
        (hffresh (Cursor.skip_fresh _ (by simp [hhead']))) hg hat fun hne => (hgleft hne).1
    have htokens : opening tokens ++ [.key, w.token, .value] ++ [v.token] =
        opening tokens ++ Line.entryTokens w (some (spaces, v)) := by
      simp [Line.entryTokens]
    rw [htokens] at hs' hstep
    refine ⟨3, _, ?_, .intro hs' hk' hready' hover' hat hgr hgleft,
      fun bound => (hsteps (bound + 1)).trans (hstep bound)⟩
    simp only [Line.chars, Line.valueChars, hhead, List.length_append, List.length_cons,
      List.length_replicate]
    omega

/-- **All lines**, by induction on them. -/
theorem readAll?_lines {lines : List Line} (hv : ∀ x ∈ lines, x.isValid = true)
    {l : Layout} (h : Ready tokens (Line.text (Line.fromEntry lines)) l) {bound : Nat}
    (hb : (Line.text (Line.fromEntry lines)).length < bound) :
    l.readAll? bound = some (closing (Line.after tokens lines)) := by
  induction lines generalizing tokens l bound with
  | nil =>
    obtain ⟨hs, hk, -, hover, -, hremains, -⟩ := h
    obtain ⟨bound, rfl⟩ := Nat.exists_eq_succ_of_ne_zero (Nat.ne_zero_of_lt hb)
    exact readAll?_end hover hremains hs hk
  | cons x rest ih =>
    obtain ⟨hx, hrest⟩ := List.forall_mem_cons.mp hv
    cases x with
    | blank trailer => exact ih hrest h hb
    | entry key value trailer =>
      obtain ⟨n, l', hn, h', hsteps⟩ := readAll?_entry hx hrest h
      have hlen := Nat.le_trans (Line.length_text_fromEntry_le rest) (Line.length_text_le_more rest)
      rw [Line.fromEntry_entry, Line.text_cons, List.length_append] at hb
      obtain ⟨bound, rfl⟩ := Nat.exists_eq_add_of_le' (show n ≤ bound by omega)
      rw [hsteps, ih hrest h' (by omega)]
      rfl

end Layout

theorem unifyBreaks_eq_self {text : List Char} (h : '\r' ∉ text) : unifyBreaks text = text := by
  fun_induction unifyBreaks text with
  | case1 => rfl
  | case2 rest => simp at h
  | case3 rest => simp at h
  | case4 c rest _ _ ih => rw [ih fun hr => h (List.mem_cons_of_mem _ hr)]

theorem start_rest {text : List Char} (hnull : '\x00' ∉ text) (hreturn : '\r' ∉ text) :
    (Cursor.start text).rest = text := by
  have htake : text.takeWhile (· != '\x00') = text :=
    List.takeWhile_eq_self_iff.mpr fun c hc => bne_iff_ne.mpr fun h : c = _ => hnull (h ▸ hc)
  exact (congrArg unifyBreaks htake).trans (unifyBreaks_eq_self hreturn)

/-- **The tokens of a flat text.** -/
theorem tokens?_text {lines : List Line} (hv : ∀ x ∈ lines, x.isValid = true)
    (hnull : '\x00' ∉ Line.text lines) (hreturn : '\r' ∉ Line.text lines) :
    tokens? (Line.text lines) = some (Layout.closing (Line.after [] lines)) := by
  have hrest := start_rest hnull hreturn
  obtain ⟨d, hover, hat, hdr, hleft⟩ := over_text hv hrest rfl rfl
  have hready : Layout.Ready [] (Line.text (Line.fromEntry lines))
      (Layout.start (Line.text lines)) := by
    rw [Layout.start_eq]
    exact .intro .first rfl (fun _ => rfl) hover hat hdr hleft
  refine Layout.readAll?_lines hv hready ?_
  rw [Layout.start_eq, Layout.outside_cursor, hrest]
  exact Nat.lt_succ_of_le (Line.length_text_fromEntry_le lines)

end RecordFilter.Yaml
