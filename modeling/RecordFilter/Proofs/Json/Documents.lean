import Mathlib
import RecordFilter.Proofs.Json.OneMember
import RecordFilter.Proofs.Json.Scalars
import RecordFilter.Proofs.Json.TrailingSpace

/-!
# The reader recognises JSON

The grammar of RFC 8259 for documents: values, arrays and objects with commas between their items,
and white space around all of these. The reader takes a value off the front of a text just when the
grammar derives it with no more levels of nesting than it is given, and a whole text is a document
just when it is a value with white space around it.

* `Items`, `Member`, `Written`: the grammar;
* `itemsAfter_sound`, `itemsAfter_complete`: what is enclosed between marks;
* `value_sound`, `value_complete`: values, for each number of levels;
* `parse?_eq_some_iff`: documents.
-/

namespace RecordFilter.Json

/-! ## The grammar -/

/-- The text is white space, or empty. -/
def White (text : List Char) : Prop := ∀ c ∈ text, isSpace c = true

section Grammar
variable {α : Type}

/-- Items with commas between them, each with white space around it. -/
inductive Items (P : List Char → α → Prop) : List Char → List α → Prop
  | last {before text after : List Char} {a : α} (hbefore : White before) (h : P text a)
    (hafter : White after) : Items P (before ++ (text ++ after)) [a]
  | more {before text after rest : List Char} {a : α} {as : List α} (hbefore : White before)
    (h : P text a) (hafter : White after) (hrest : Items P rest as) :
    Items P (before ++ (text ++ (after ++ ',' :: rest))) (a :: as)

/-- What stands between the marks of an array or an object. -/
inductive Enclosed (P : List Char → α → Prop) : List Char → List α → Prop
  | empty {text : List Char} (h : White text) : Enclosed P text []
  | items {text : List Char} {as : List α} (h : Items P text as) : Enclosed P text as

/-- A name, a colon and a value. -/
inductive Member (P : List Char → α → Prop) : List Char → String × α → Prop
  | mk {name cs before after text : List Char} {a : α} (hname : Body name cs)
    (hbefore : White before) (hafter : White after) (h : P text a) :
    Member P ('"' :: (name ++ '"' :: (before ++ ':' :: (after ++ text)))) (String.ofList cs, a)

/-- A value without parts. -/
inductive Scalar : List Char → Json → Prop
  | word {text : List Char} {v : Json} (h : (text, v) ∈ words) : Scalar text v
  | number {t : NumberText} {n : Number} (h : t.number? = some n) : Scalar t.text (.number n)
  | string {body cs : List Char} (h : Body body cs) :
    Scalar ('"' :: (body ++ ['"'])) (.string (String.ofList cs))

/-- A value, whose parts are written as `P` says. -/
inductive Composed (P : List Char → Json → Prop) : List Char → Json → Prop
  | scalar {text : List Char} {v : Json} (h : Scalar text v) : Composed P text v
  | array {text : List Char} {vs : List Json} (h : Enclosed P text vs) :
    Composed P ('[' :: (text ++ [']'])) (.array vs)
  | object {text : List Char} {ms : List (String × Json)} (h : Enclosed (Member P) text ms) :
    Composed P ('\x7b' :: (text ++ ['\x7d'])) (.object ms)

/-- A value with at most `levels` arrays and objects around any of its parts. -/
def Written : (levels : Nat) → List Char → Json → Prop
  | 0 => Scalar
  | levels + 1 => Composed (Written levels)

end Grammar

/-! ## White space -/

theorem skipSpace_white {before : List Char} (h : White before) (text : List Char) :
    skipSpace (before ++ text) = skipSpace text :=
  List.dropWhile_append_of_pos h

theorem exists_white (text : List Char) :
    ∃ before, White before ∧ text = before ++ skipSpace text :=
  ⟨text.takeWhile isSpace, fun _ hc => List.mem_takeWhile_imp hc,
    List.takeWhile_append_dropWhile.symm⟩

theorem white_nil : White [] := nofun

theorem White.append {text rest : List Char} (h : White text) (h' : White rest) :
    White (text ++ rest) :=
  List.forall_mem_append.mpr ⟨h, h'⟩

/-- The character ends an item. -/
def IsMark (c : Char) : Prop := c = ',' ∨ c = ']' ∨ c = '\x7d'

theorem IsMark.isSpace {c : Char} (h : IsMark c) : isSpace c = false := by
  rcases h with rfl | rfl | rfl <;> rfl

/-- No number goes on with white space, or with a mark behind it. -/
theorem endsNumber_white {after rest : List Char} (h : White after)
    (hrest : ∀ c ∈ rest.head?, IsMark c) : EndsNumber (after ++ rest) := by
  intro c hc
  cases after with
  | nil =>
    rcases hrest c hc with rfl | rfl | rfl <;> decide
  | cons x after =>
    obtain rfl := Option.some.inj hc
    exact forall_space (P := fun c => c.isDigit = false ∧ c ≠ '.' ∧ c ≠ 'e' ∧ c ≠ 'E') (by decide)
      (h x List.mem_cons_self)

theorem White.endsNumber {after : List Char} (h : White after) : EndsNumber after := by
  have hends : EndsNumber (after ++ []) := endsNumber_white h nofun
  rwa [List.append_nil] at hends

theorem endsNumber_of_mark {text rest : List Char} {c : Char} (h : skipSpace text = c :: rest)
    (hc : IsMark c) : EndsNumber text := by
  obtain ⟨before, hbefore, htext⟩ := exists_white text
  rw [htext, h]
  exact endsNumber_white hbefore fun d hd => Option.some.inj hd ▸ hc

/-! ## Soundness -/

section Sound
variable {α : Type} {P : List Char → α → Prop} {one : Reader α}

/-- What the reader takes off the front is white space and then what `P` derives, if no number goes
on after it. -/
def Sound (r : Reader α) (P : List Char → α → Prop) : Prop :=
  ∀ (text rest : List Char) (a : α), r text = some (a, rest) → EndsNumber rest →
    ∃ before taken, White before ∧ text = before ++ (taken ++ rest) ∧ P taken a

theorem itemsAfter_sound (hone : Sound one P) {close : Char} (hclose : IsMark close) :
    ∀ {bound : Nat} {taken as : List α} {text rest : List Char},
      itemsAfter close one bound taken text = some (as, rest) →
      ∃ inner more, text = inner ++ close :: rest ∧ Items P inner more ∧
        as = taken.reverse ++ more
  | bound + 1, taken, as, text, rest, h => by
    rw [itemsAfter] at h
    cases hfound : one text with
    | none => rw [hfound] at h; cases h
    | some res =>
      obtain ⟨a, after⟩ := res
      rw [hfound] at h
      dsimp only at h
      obtain ⟨gap, hgap, hafter⟩ := exists_white after
      cases hmark : skipSpace after with
      | nil => rw [hmark] at h; cases h
      | cons x rest' =>
        rw [hmark] at h hafter
        dsimp only at h
        split at h
        · next hcomma =>
          subst hcomma
          obtain ⟨before, body, hbefore, rfl, hbody⟩ :=
            hone _ _ _ hfound (endsNumber_of_mark hmark (.inl rfl))
          obtain ⟨inner, more, rfl, hinner, rfl⟩ := itemsAfter_sound hone hclose h
          refine ⟨before ++ (body ++ (gap ++ ',' :: inner)), a :: more, ?_,
            .more hbefore hbody hgap hinner, by simp⟩
          rw [hafter]
          simp
        next hcomma =>
        split at h
        · next hx =>
          subst hx
          obtain ⟨before, body, hbefore, rfl, hbody⟩ :=
            hone _ _ _ hfound (endsNumber_of_mark hmark hclose)
          obtain ⟨rfl, rfl⟩ := Prod.mk.inj (Option.some.inj h)
          refine ⟨before ++ (body ++ gap), [a], ?_, .last hbefore hbody hgap, by simp⟩
          rw [hafter]
          simp
        · cases h

theorem Items.white_append {before text : List Char} {as : List α} (hbefore : White before)
    (h : Items P text as) : Items P (before ++ text) as := by
  cases h with
  | last hbefore' h hafter =>
    rw [← List.append_assoc]
    exact .last (hbefore.append hbefore') h hafter
  | more hbefore' h hafter hrest =>
    rw [← List.append_assoc]
    exact .more (hbefore.append hbefore') h hafter hrest

theorem enclosedAfter_sound (hone : Sound one P) {close : Char} (hclose : IsMark close)
    {make : List α → Json} {bound : Nat} {text rest : List Char} {v : Json}
    (h : enclosedAfter close one make bound text = some (v, rest)) :
    ∃ inner as, text = inner ++ close :: rest ∧ Enclosed P inner as ∧ v = make as := by
  obtain ⟨before, hbefore, htext⟩ := exists_white text
  rw [enclosedAfter] at h
  cases hskip : skipSpace text with
  | nil => rw [hskip] at h; cases h
  | cons x rest' =>
    rw [hskip] at h htext
    dsimp only at h
    split at h
    · next hx =>
      obtain ⟨rfl, rfl⟩ := Prod.mk.inj (Option.some.inj h)
      exact ⟨before, [], hx ▸ htext, .empty hbefore, rfl⟩
    · obtain ⟨⟨as, rest''⟩, hitems, hfound⟩ := Option.map_eq_some_iff.mp h
      obtain ⟨rfl, rfl⟩ := Prod.mk.inj hfound
      obtain ⟨inner, more, hinner, hmore, has⟩ := itemsAfter_sound hone hclose hitems
      refine ⟨before ++ inner, more, ?_, .items (hmore.white_append hbefore), congrArg make has⟩
      rw [htext, hinner, List.append_assoc]

end Sound

theorem member_sound {element : Reader Json} {P : List Char → Json → Prop}
    (helement : Sound element P) (bound : Nat) : Sound (member bound element) (Member P) := by
  intro text rest m h hrest
  obtain ⟨before, hbefore, htext⟩ := exists_white text
  cases hskip : skipSpace text with
  | nil =>
    rw [member, hskip] at h
    cases h
  | cons x after =>
    by_cases hquote : x = '"'
    · subst hquote
      rw [member, hskip] at h
      rw [hskip] at htext
      cases hname : stringAfter bound [] after with
      | none =>
        simp only [hname] at h
        cases h
      | some res =>
        obtain ⟨name, after'⟩ := res
        simp only [hname] at h
        obtain ⟨body, cs, rfl, hbody, rfl⟩ := stringAfter_sound hname
        obtain ⟨gap, hgap, hafter⟩ := exists_white after'
        split at h
        · next after'' hcolon =>
          obtain ⟨⟨v, rest'⟩, hvalue, hfound⟩ := Option.map_eq_some_iff.mp h
          obtain ⟨rfl, rfl⟩ := Prod.mk.inj hfound
          obtain ⟨gap', taken, hgap', rfl, htaken⟩ := helement _ _ _ hvalue hrest
          refine ⟨before, _, hbefore, ?_, .mk hbody hgap hgap' htaken⟩
          rw [htext, hafter, hcolon]
          simp
        · cases h
    · rw [member_other hquote hskip] at h
      cases h

theorem wordOrNumber_sound {text rest : List Char} {v : Json}
    (h : wordOrNumber text = some (v, rest)) (hrest : EndsNumber rest) :
    ∃ taken, text = taken ++ rest ∧ Scalar taken v := by
  rw [wordOrNumber] at h
  cases hword : word? text with
  | some found =>
    rw [hword] at h
    cases h
    obtain ⟨w, hw, rfl⟩ := word?_sound hword
    exact ⟨w, rfl, .word hw⟩
  | none =>
    rw [hword] at h
    obtain ⟨⟨n, rest'⟩, hread, hfound⟩ := Option.map_eq_some_iff.mp h
    obtain ⟨rfl, rfl⟩ := Prod.mk.inj hfound
    obtain ⟨t, rfl, ht⟩ := Number.read?_sound hread hrest
    exact ⟨t.text, rfl, .number ht⟩

/-- A value is a scalar, or what is read after an opening mark. -/
theorem valueWith_sound {bound : Nat} {arrays objects : Reader Json} {P : List Char → Json → Prop}
    (hscalar : ∀ text v, Scalar text v → P text v)
    (harrays : ∀ text rest v, arrays text = some (v, rest) →
      ∃ taken, text = taken ++ ']' :: rest ∧ P ('[' :: (taken ++ [']'])) v)
    (hobjects : ∀ text rest v, objects text = some (v, rest) →
      ∃ taken, text = taken ++ '\x7d' :: rest ∧ P ('\x7b' :: (taken ++ ['\x7d'])) v) :
    Sound (valueWith bound arrays objects) P := by
  intro text rest v h hrest
  obtain ⟨before, hbefore, htext⟩ := exists_white text
  cases hskip : skipSpace text with
  | nil =>
    rw [valueWith, hskip] at h
    cases h
  | cons x after =>
    rw [hskip] at htext
    by_cases hstring : x = '"'
    · subst hstring
      rw [valueWith, hskip] at h
      obtain ⟨⟨s, rest'⟩, hread, hfound⟩ := Option.map_eq_some_iff.mp h
      obtain ⟨rfl, rfl⟩ := Prod.mk.inj hfound
      obtain ⟨body, cs, rfl, hbody, rfl⟩ := stringAfter_sound hread
      exact ⟨before, _, hbefore, by simpa using htext, hscalar _ _ (.string hbody)⟩
    by_cases harray : x = '['
    · subst harray
      rw [valueWith, hskip] at h
      obtain ⟨taken, rfl, htaken⟩ := harrays _ _ _ h
      exact ⟨before, _, hbefore, by simpa using htext, htaken⟩
    by_cases hobject : x = '\x7b'
    · subst hobject
      rw [valueWith, hskip] at h
      obtain ⟨taken, rfl, htaken⟩ := hobjects _ _ _ h
      exact ⟨before, _, hbefore, by simpa using htext, htaken⟩
    · rw [valueWith_other ⟨hstring, harray, hobject⟩ hskip] at h
      obtain ⟨taken, htaken, hscalars⟩ := wordOrNumber_sound h hrest
      exact ⟨before, taken, hbefore, htaken ▸ htext, hscalar _ _ hscalars⟩

/-- **What is read as a value is one**, with no more levels than the reader is given. -/
theorem value_sound (bound : Nat) : ∀ levels, Sound (value bound levels) (Written levels)
  | 0 => valueWith_sound (fun _ _ h => h) nofun nofun
  | levels + 1 => by
    have helement := value_sound bound levels
    refine valueWith_sound (fun _ _ h => .scalar h) (fun text rest v h => ?_)
      fun text rest v h => ?_
    · have hnil : value bound levels [] = none := by cases levels <;> rfl
      rw [arrayAfter_eq hnil] at h
      obtain ⟨inner, vs, rfl, hinner, rfl⟩ := enclosedAfter_sound helement (.inr (.inl rfl)) h
      exact ⟨inner, rfl, .array hinner⟩
    · rw [objectAfter_eq] at h
      obtain ⟨inner, ms, rfl, hinner, rfl⟩ :=
        enclosedAfter_sound (member_sound helement bound) (.inr (.inr rfl)) h
      exact ⟨inner, rfl, .object hinner⟩

/-! ## Completeness -/

/-- What `P` derives begins with something that is neither white space nor a mark. -/
def Begins {α : Type} (P : List Char → α → Prop) : Prop :=
  ∀ (text : List Char) (a : α), P text a →
    ∃ x rest, text = x :: rest ∧ isSpace x = false ∧ ¬ IsMark x

theorem begins_scalar : Begins Scalar := by
  intro text v h
  cases h with
  | word h =>
    have hall : ∀ w ∈ words, ∃ x rest, w.1 = x :: rest ∧ isSpace x = false ∧ ¬ IsMark x := by
      simp [words, IsMark, isSpace]
    exact hall _ h
  | @number t _ _ =>
    obtain ⟨x, rest, htext, hx⟩ := t.text_begins
    refine ⟨x, rest, htext, ?_⟩
    rcases hx with hx | rfl
    · exact Lexeme.forall_digit (fun c => isSpace c = false ∧ ¬ (c = ',' ∨ c = ']' ∨ c = '\x7d'))
        (by decide) hx
    · exact ⟨rfl, by simp [IsMark]⟩
  | string _ => exact ⟨'"', _, rfl, rfl, by simp [IsMark]⟩

theorem begins_written : ∀ levels, Begins (Written levels)
  | 0 => begins_scalar
  | levels + 1 => by
    intro text v h
    cases h with
    | scalar h => exact begins_scalar _ _ h
    | array _ => exact ⟨'[', _, rfl, rfl, by simp [IsMark]⟩
    | object _ => exact ⟨'\x7b', _, rfl, rfl, by simp [IsMark]⟩

theorem begins_member {α : Type} (P : List Char → α → Prop) : Begins (Member P) := by
  intro text m h
  cases h with
  | mk _ _ _ _ => exact ⟨'"', _, rfl, rfl, by simp [IsMark]⟩

theorem skipSpace_mark {after rest : List Char} (h : White after) {c : Char} (hc : IsMark c) :
    skipSpace (after ++ c :: rest) = c :: rest := by
  rw [skipSpace_white h, skipSpace_cons hc.isSpace]

section Complete
variable {α : Type} {P : List Char → α → Prop} {one : Reader α} {n : Nat}

/-- The reader takes what `P` derives off the front, behind white space, if no number goes on after
it and the text is shorter than `n`. -/
def Complete (n : Nat) (r : Reader α) (P : List Char → α → Prop) : Prop :=
  ∀ (before taken rest : List Char) (a : α), White before → P taken a → EndsNumber rest →
    (before ++ (taken ++ rest)).length < n → r (before ++ (taken ++ rest)) = some (a, rest)

theorem itemsAfter_complete (hone : Complete n one P) {close : Char} (hclose : IsMark close)
    (hcomma : close ≠ ',') {inner : List Char} {as : List α} (h : Items P inner as)
    (rest : List Char) : ∀ (bound : Nat) (taken : List α),
      (inner ++ close :: rest).length < bound → (inner ++ close :: rest).length < n →
      itemsAfter close one bound taken (inner ++ close :: rest) =
        some (taken.reverse ++ as, rest) := by
  induction h with
  | @last before text after a hbefore h hafter =>
    rintro (- | bound) taken hbound hn
    · exact absurd hbound (Nat.not_lt_zero _)
    · have hends : EndsNumber (after ++ close :: rest) := endsNumber_white hafter fun c hc =>
        Option.some.inj hc ▸ hclose
      rw [List.append_assoc, List.append_assoc] at hn ⊢
      rw [itemsAfter, hone _ _ _ _ hbefore h hends hn]
      dsimp only
      rw [skipSpace_mark hafter hclose]
      simp [hcomma]
  | @more before text after rest' a as hbefore h hafter _ ih =>
    rintro (- | bound) taken hbound hn
    · exact absurd hbound (Nat.not_lt_zero _)
    · have hends : EndsNumber (after ++ ',' :: (rest' ++ close :: rest)) :=
        endsNumber_white hafter fun c hc => Option.some.inj hc ▸ .inl rfl
      rw [List.append_assoc, List.append_assoc, List.append_assoc, List.cons_append] at hn hbound ⊢
      rw [itemsAfter, hone _ _ _ _ hbefore h hends hn]
      dsimp only
      rw [skipSpace_mark hafter (.inl rfl)]
      dsimp only
      have hle : (rest' ++ close :: rest).length + 1 ≤
          (before ++ (text ++ (after ++ ',' :: (rest' ++ close :: rest)))).length := by
        simp only [List.length_append, List.length_cons]
        omega
      rw [if_pos rfl, ih bound (a :: taken) (by omega) (by omega)]
      simp

theorem Items.begins (hP : Begins P) {inner : List Char} {as : List α} (h : Items P inner as)
    (rest : List Char) :
    ∃ before x more, White before ∧ inner ++ rest = before ++ x :: (more ++ rest) ∧
      isSpace x = false ∧ ¬ IsMark x ∧ Items P (x :: more) as := by
  cases h with
  | @last before text after a hbefore h hafter =>
    obtain ⟨x, more, rfl, hspace, hmark⟩ := hP _ _ h
    exact ⟨before, x, more ++ after, hbefore, by simp, hspace, hmark, .last white_nil h hafter⟩
  | @more before text after rest' a as hbefore h hafter hrest =>
    obtain ⟨x, more, rfl, hspace, hmark⟩ := hP _ _ h
    exact ⟨before, x, _, hbefore, by simp, hspace, hmark, .more white_nil h hafter hrest⟩

theorem enclosedAfter_complete (hone : Complete n one P) (hP : Begins P) {close : Char}
    (hclose : IsMark close) (hcomma : close ≠ ',') (make : List α → Json) {inner : List Char}
    {as : List α} (h : Enclosed P inner as) (rest : List Char) {bound : Nat}
    (hbound : (inner ++ close :: rest).length < bound)
    (hn : (inner ++ close :: rest).length < n) :
    enclosedAfter close one make bound (inner ++ close :: rest) = some (make as, rest) := by
  rw [enclosedAfter]
  cases h with
  | empty h =>
    rw [skipSpace_mark h hclose]
    exact if_pos rfl
  | items h =>
    obtain ⟨before, x, more, hbefore, htext, hspace, hmark, hitems⟩ :=
      h.begins hP (close :: rest)
    rw [htext] at hbound hn ⊢
    rw [skipSpace_white hbefore, skipSpace_cons hspace]
    rw [List.length_append] at hbound hn
    have hclosed : x ≠ close := fun heq => hmark (heq ▸ hclose)
    have hread := itemsAfter_complete hone hclose hcomma hitems rest bound [] (by
      rw [List.cons_append]; omega) (by rw [List.cons_append]; omega)
    dsimp only
    rw [if_neg hclosed, ← List.cons_append, hread]
    rfl

end Complete

theorem member_complete {element : Reader Json} {P : List Char → Json → Prop} {n bound : Nat}
    (helement : Complete n element P) (hbound : n ≤ bound) :
    Complete n (member bound element) (Member P) := by
  intro before taken rest m hbefore h hrest hn
  cases h with
  | @mk name cs gap gap' text v hname hgap hgap' h =>
    have hmember : '"' :: (name ++ '"' :: (gap ++ ':' :: (gap' ++ text))) ++ rest =
        '"' :: (name ++ '"' :: (gap ++ ':' :: (gap' ++ (text ++ rest)))) := by simp
    rw [hmember] at hn ⊢
    simp only [List.length_append, List.length_cons] at hn
    have hvalue := helement gap' text rest v hgap' h hrest (by
      simp only [List.length_append]
      omega)
    have hstring := stringAfter_complete hname (gap ++ ':' :: (gap' ++ (text ++ rest))) bound []
      (by omega)
    have hcolon : skipSpace (gap ++ ':' :: (gap' ++ (text ++ rest))) =
        ':' :: (gap' ++ (text ++ rest)) := by
      rw [skipSpace_white hgap, skipSpace_cons rfl]
    simp only [member, skipSpace_white hbefore, skipSpace_cons (c := '"') rfl, hstring, hcolon,
      hvalue]
    rfl

theorem valueWith_white {before : List Char} (h : White before) (bound : Nat)
    (arrays objects : Reader Json) (text : List Char) :
    valueWith bound arrays objects (before ++ text) = valueWith bound arrays objects text := by
  rw [valueWith, valueWith, skipSpace_white h]

theorem scalar_complete {text : List Char} {v : Json} (h : Scalar text v) {rest : List Char}
    (hrest : EndsNumber rest) {bound : Nat} (hbound : (text ++ rest).length < bound)
    (arrays objects : Reader Json) :
    valueWith bound arrays objects (text ++ rest) = some (v, rest) := by
  cases h with
  | word h =>
    have hall : ∀ w ∈ words, ∃ x more, w.1 = x :: more ∧ isSpace x = false ∧
        x ≠ '"' ∧ x ≠ '[' ∧ x ≠ '\x7b' := by
      simp [words, isSpace]
    obtain ⟨x, more, htext, hspace, hx⟩ := hall _ h
    have hread := word?_complete h rest
    rw [show text = x :: more from htext, List.cons_append] at hread ⊢
    rw [valueWith_other hx (skipSpace_cons hspace _), wordOrNumber, hread]
  | number ht =>
    rw [valueWith_text _ hrest, ht]
    rfl
  | string hbody =>
    simp only [List.length_append, List.length_cons] at hbound
    rw [List.cons_append, List.append_assoc, valueWith, skipSpace_cons rfl]
    show (stringAfter bound [] _).map _ = _
    rw [List.singleton_append, stringAfter_complete hbody _ _ _ (by omega)]
    rfl

/-- **Every value is read**, if it has no more levels than the reader is given. -/
theorem value_complete {n bound : Nat} (hbound : n ≤ bound) :
    ∀ levels, Complete n (value bound levels) (Written levels)
  | 0 => fun before taken rest v hbefore h hrest hn => by
    rw [List.length_append] at hn
    rw [value, valueWith_white hbefore, scalar_complete h hrest (by omega)]
  | levels + 1 => fun before taken rest v hbefore h hrest hn => by
    have helement := value_complete hbound levels
    rw [List.length_append] at hn
    rw [value_succ, valueWith_white hbefore]
    cases h with
    | scalar h => exact scalar_complete h hrest (by omega) _ _
    | array h =>
      have hnil : value bound levels [] = none := by cases levels <;> rfl
      rw [List.cons_append, List.append_assoc, List.singleton_append, List.length_cons] at hn
      rw [List.cons_append, List.append_assoc, List.singleton_append, valueWith,
        skipSpace_cons rfl]
      show arrayAfter bound (value bound levels) _ = _
      rw [arrayAfter_eq hnil]
      exact enclosedAfter_complete helement (begins_written levels) (.inr (.inl rfl)) (by decide)
        .array h rest (by omega) (by omega)
    | object h =>
      rw [List.cons_append, List.append_assoc, List.singleton_append, List.length_cons] at hn
      rw [List.cons_append, List.append_assoc, List.singleton_append, valueWith,
        skipSpace_cons rfl]
      show objectAfter bound (value bound levels) _ = _
      rw [objectAfter_eq]
      exact enclosedAfter_complete (member_complete helement hbound) (begins_member _)
        (.inr (.inr rfl)) (by decide) .object h rest (by omega) (by omega)

/-! ## Documents -/

/-- **A text is a document just when it is a value with white space around it**, in which arrays and
objects are nested at most `maxNesting` deep. -/
theorem parse?_eq_some_iff {text : List Char} {v : Json} :
    parse? text = some v ↔ ∃ before taken after, White before ∧ White after ∧
      text = before ++ (taken ++ after) ∧ Written maxNesting taken v := by
  rw [parse?]
  constructor
  · intro h
    cases hfound : value (text.length + 1) maxNesting text with
    | none => rw [hfound] at h; cases h
    | some res =>
      obtain ⟨v', rest⟩ := res
      rw [hfound] at h
      obtain ⟨hnil, hv⟩ := Option.ite_none_right_eq_some.mp h
      obtain rfl := Option.some.inj hv
      obtain ⟨after, hafter, hrest⟩ := exists_white rest
      rw [List.isEmpty_iff.mp hnil, List.append_nil] at hrest
      subst hrest
      have hends := hafter.endsNumber
      obtain ⟨before, taken, hbefore, htext, htaken⟩ :=
        value_sound _ maxNesting _ _ _ hfound hends
      exact ⟨before, taken, rest, hbefore, hafter, htext, htaken⟩
  · rintro ⟨before, taken, after, hbefore, hafter, rfl, htaken⟩
    have hends := hafter.endsNumber
    have hskip : skipSpace after = [] := by
      have hwhite := skipSpace_white hafter []
      rwa [List.append_nil] at hwhite
    rw [value_complete (Nat.le_refl _) maxNesting _ _ _ _ hbefore htaken hends
      (Nat.lt_succ_self _)]
    dsimp only
    rw [hskip]
    rfl

theorem value_of_written {levels : Nat} {text : List Char} {v : Json} (h : Written levels text v) :
    value (text.length + 1) levels text = some (v, []) := by
  have hread := value_complete (Nat.le_refl (text.length + 1)) levels [] text [] v nofun h nofun
  rw [List.nil_append, List.append_nil] at hread
  exact hread (Nat.lt_succ_self _)

theorem written_unique {levels : Nat} {text : List Char} {v v' : Json} (h : Written levels text v)
    (h' : Written levels text v') : v = v' :=
  (Prod.mk.inj (Option.some.inj ((value_of_written h).symm.trans (value_of_written h')))).1

theorem number_of_written {levels : Nat} {t : NumberText} {v : Json}
    (h : Written levels t.text v) : ∃ n, t.number? = some n ∧ v = .number n := by
  have hnil : EndsNumber [] := nofun
  have hread := value_text t hnil (t.text.length + 1) levels
  rw [List.append_nil, value_of_written h] at hread
  obtain ⟨n, hn, hfound⟩ := Option.map_eq_some_iff.mp hread.symm
  exact ⟨n, hn, (Prod.mk.inj hfound).1.symm⟩

theorem written_of_scalar {text : List Char} {v : Json} (h : Scalar text v) :
    ∀ levels, Written levels text v
  | 0 => h
  | _ + 1 => .scalar h

end RecordFilter.Json
