import Mathlib
import RecordFilter.Pipeline
import RecordFilter.Proofs.Conditions.Locality
import RecordFilter.Proofs.Json.Documents
import RecordFilter.Proofs.Records.IntegerField

/-!
# What the members of a record mean

A line holds a record when it is an object, and what becomes of a name depends on its last member
alone: a string, a number or a truth value is the field, and null, an array or an object leaves no
field, even if an earlier member of the same name had given one. So the line is filtered in the same
way when members of different names change places, or when a member goes away that another one of
its name follows.

* `lookup_fieldsOf`: the last member of a name decides;
* `gives_of_written`: the field that the text of a value gives;
* `last?_eq_of_rearranged`: what is last of a name stays so;
* `record_of_members`: the meaning of the members.
-/

namespace RecordFilter.Json

/-! ## The texts of members -/

/-- The text is that of a value in an object. -/
def IsValue (text : List Char) : Prop := ∃ v, Written (maxNesting - 1) text v

/-- The text is an object with these members in their order: each is a name and the text of its
value. -/
def IsObject (text : List Char) (ms : List (String × List Char)) : Prop :=
  ∃ before inner after, White before ∧ White after ∧
    text = before ++ ('\x7b' :: (inner ++ ['\x7d']) ++ after) ∧
    Enclosed (Member fun body own => own = body ∧ IsValue body) inner ms

section Items
variable {α β : Type} {P : List Char → α → Prop} {Q : List Char → β → Prop} {R : α → β → Prop}

theorem Items.exists_related (h : ∀ text a, P text a → ∃ b, Q text b ∧ R a b) {text : List Char}
    {as : List α} (hitems : Items P text as) :
    ∃ bs, Items Q text bs ∧ List.Forall₂ R as bs := by
  induction hitems with
  | last hbefore ha hafter =>
    obtain ⟨b, hb, hab⟩ := h _ _ ha
    exact ⟨[b], .last hbefore hb hafter, .cons hab .nil⟩
  | more hbefore ha hafter _ ih =>
    obtain ⟨b, hb, hab⟩ := h _ _ ha
    obtain ⟨bs, hbs, hall⟩ := ih
    exact ⟨b :: bs, .more hbefore hb hafter hbs, .cons hab hall⟩

/-- What is derived by one grammar of items is derived by another one when each item is. -/
theorem Enclosed.exists_related (h : ∀ text a, P text a → ∃ b, Q text b ∧ R a b) {text : List Char}
    {as : List α} (henclosed : Enclosed P text as) :
    ∃ bs, Enclosed Q text bs ∧ List.Forall₂ R as bs := by
  cases henclosed with
  | empty htext => exact ⟨[], .empty htext, .nil⟩
  | items hitems =>
    obtain ⟨bs, hbs, hall⟩ := hitems.exists_related h
    exact ⟨bs, .items hbs, hall⟩

end Items

/-- The member has the name, and its value is what the text says. -/
def Spells (own : String × List Char) (m : String × Json) : Prop :=
  own.1 = m.1 ∧ Written (maxNesting - 1) own.2 m.2

/-- **A text is read as an object just when it is one**, and what is read are the values that the
texts of its members spell. -/
theorem exists_members {text : List Char} {ms : List (String × List Char)} (h : IsObject text ms) :
    ∃ members, parse? text = some (.object members) ∧ List.Forall₂ Spells ms members := by
  obtain ⟨before, inner, after, hbefore, hafter, htext, hinner⟩ := h
  have hmember : ∀ (text : List Char) (own : String × List Char),
      Member (fun body own => own = body ∧ IsValue body) text own →
      ∃ m, Member (Written (maxNesting - 1)) text m ∧ Spells own m := by
    intro text own hown
    cases hown with
    | mk hname hgap hgap' hvalue =>
      obtain ⟨rfl, v, hv⟩ := hvalue
      exact ⟨_, .mk hname hgap hgap' hv, rfl, hv⟩
  obtain ⟨members, hmembers, hall⟩ := hinner.exists_related hmember
  refine ⟨members, parse?_eq_some_iff.mpr ?_, hall⟩
  exact ⟨before, _, after, hbefore, hafter, htext, .object hmembers⟩

theorem exists_isObject {text : List Char} {members : List (String × Json)}
    (h : parse? text = some (.object members)) : ∃ ms, IsObject text ms := by
  obtain ⟨before, taken, after, hbefore, hafter, htext, htaken⟩ := parse?_eq_some_iff.mp h
  have hmember : ∀ (text : List Char) (m : String × Json),
      Member (Written (maxNesting - 1)) text m →
      ∃ own, Member (fun body own => own = body ∧ IsValue body) text own ∧ Spells own m := by
    intro text m hm
    cases hm with
    | mk hname hgap hgap' hvalue =>
      exact ⟨_, .mk hname hgap hgap' ⟨rfl, _, hvalue⟩, rfl, hvalue⟩
  cases htaken with
  | scalar hscalar =>
    cases hscalar with
    | word hword =>
      have hall : ∀ w ∈ words, ∀ ms, w.2 ≠ .object ms := by simp [words]
      exact absurd rfl (hall _ hword members)
  | object hinner =>
    obtain ⟨ms, hms, -⟩ := hinner.exists_related hmember
    exact ⟨ms, before, _, after, hbefore, hafter, htext, hms⟩

theorem isValue_iff {text : List Char} : IsValue text ↔
    (value (text.length + 1) (maxNesting - 1) text).map Prod.snd = some [] ∧
      text.head?.any isSpace = false := by
  constructor
  · rintro ⟨v, hv⟩
    obtain ⟨x, rest, rfl, hx, -⟩ := begins_written _ _ _ hv
    rw [value_of_written hv]
    exact ⟨rfl, hx⟩
  · rintro ⟨hread, hhead⟩
    obtain ⟨⟨v, rest⟩, hfound, rfl⟩ := Option.map_eq_some_iff.mp hread
    obtain ⟨before, taken, hbefore, htext, htaken⟩ := value_sound _ _ _ _ _ hfound nofun
    cases before with
    | nil =>
      rw [List.nil_append, List.append_nil] at htext
      exact ⟨v, htext ▸ htaken⟩
    | cons c before =>
      have hspace := hbefore c List.mem_cons_self
      rw [htext, List.cons_append, List.head?_cons, Option.any_some, hspace] at hhead
      cases hhead

instance (text : List Char) : Decidable (IsValue text) := decidable_of_iff _ isValue_iff.symm

instance (text : List Char) : Decidable (IsPlain text) := List.decidableBAll _ text

/-- A member without white space. -/
def memberText (m : List Char × List Char) : List Char := '"' :: (m.1 ++ '"' :: ':' :: m.2)

/-- Members with commas between them. -/
def membersText (m : List Char × List Char) : List (List Char × List Char) → List Char
  | [] => memberText m
  | m' :: ms => memberText m ++ ',' :: membersText m' ms

/-- An object without white space. -/
def objectText : List (List Char × List Char) → List Char
  | [] => ['\x7b', '\x7d']
  | m :: ms => '\x7b' :: (membersText m ms ++ ['\x7d'])

theorem body_of_isPlain {text : List Char} (h : IsPlain text) : Body text text := by
  induction text with
  | nil => exact .nil
  | cons c cs ih =>
    obtain ⟨⟨hquote, hescape, hcontrol⟩, hcs⟩ := List.forall_mem_cons.mp h
    exact .plain hquote hescape hcontrol (ih hcs)

/-- **Members can be put together to an object**, whatever they are, if their names need no
escapes. -/
theorem isObject_objectText {ms : List (List Char × List Char)}
    (h : ∀ m ∈ ms, IsPlain m.1 ∧ IsValue m.2) :
    IsObject (objectText ms) (ms.map fun m => (String.ofList m.1, m.2)) := by
  have hmember : ∀ m : List Char × List Char, IsPlain m.1 ∧ IsValue m.2 →
      Member (fun body own => own = body ∧ IsValue body) (memberText m)
        (String.ofList m.1, m.2) := fun m hm =>
    .mk (body_of_isPlain hm.1) white_nil white_nil ⟨rfl, hm.2⟩
  have hitems : ∀ (ms : List (List Char × List Char)) (m : List Char × List Char),
      (∀ m' ∈ m :: ms, IsPlain m'.1 ∧ IsValue m'.2) →
      Items (Member fun body own => own = body ∧ IsValue body) (membersText m ms)
        ((m :: ms).map fun m => (String.ofList m.1, m.2)) := by
    intro ms
    induction ms with
    | nil =>
      intro m hm
      have hlast := Items.last white_nil (hmember m (hm m List.mem_cons_self)) white_nil
      rwa [List.append_nil] at hlast
    | cons m' ms ih =>
      intro m hm
      obtain ⟨hfirst, hrest⟩ := List.forall_mem_cons.mp hm
      exact .more white_nil (hmember m hfirst) white_nil (ih m' hrest)
  cases ms with
  | nil => exact ⟨[], [], [], white_nil, white_nil, rfl, .empty white_nil⟩
  | cons m ms =>
    refine ⟨[], membersText m ms, [], white_nil, white_nil, ?_, .items (hitems ms m h)⟩
    rw [objectText, List.nil_append, List.append_nil]

theorem written_cases {levels : Nat} {text : List Char} {v : Json} (h : Written levels text v) :
    Scalar text v ∨ (∃ vs, v = .array vs) ∨ ∃ ms, v = .object ms := by
  cases levels with
  | zero => exact .inl h
  | succ levels =>
    cases h with
    | scalar h => exact .inl h
    | array _ => exact .inr (.inl ⟨_, rfl⟩)
    | object _ => exact .inr (.inr ⟨_, rfl⟩)

end RecordFilter.Json

namespace RecordFilter.Record

open Json

/-! ## Fields -/

section Last
variable {α : Type}

/-- What stands last under the name. -/
def last? (name : String) : List (String × α) → Option α
  | [] => none
  | m :: ms => (last? name ms).or (if m.1 = name then some m.2 else none)

theorem last?_append (name : String) (ms ms' : List (String × α)) :
    last? name (ms ++ ms') = (last? name ms').or (last? name ms) := by
  induction ms with
  | nil => rw [List.nil_append, last?, Option.or_none]
  | cons m ms ih => rw [List.cons_append, last?, last?, ih, Option.or_assoc]

theorem isSome_last? {name : String} {ms : List (String × α)} (h : ∃ m ∈ ms, m.1 = name) :
    (last? name ms).isSome = true := by
  obtain ⟨m, hm, rfl⟩ := h
  obtain ⟨pre, post, rfl⟩ := List.append_of_mem hm
  rw [last?_append, Option.isSome_or, last?, Option.isSome_or, if_pos rfl]
  simp

/-- Members of different names that stand side by side change places, a member goes away that
another one of its name follows, and so on. -/
inductive Rearranged : List (String × α) → List (String × α) → Prop
  | swap (pre post : List (String × α)) {m m' : String × α} (h : m.1 ≠ m'.1) :
    Rearranged (pre ++ m :: m' :: post) (pre ++ m' :: m :: post)
  | drop (pre post : List (String × α)) {m : String × α} (h : ∃ m' ∈ post, m'.1 = m.1) :
    Rearranged (pre ++ m :: post) (pre ++ post)
  | refl (ms : List (String × α)) : Rearranged ms ms
  | symm {ms ms' : List (String × α)} (h : Rearranged ms ms') : Rearranged ms' ms
  | trans {ms ms' ms'' : List (String × α)} (h : Rearranged ms ms') (h' : Rearranged ms' ms'') :
    Rearranged ms ms''

/-- **What is last of a name stays so.** -/
theorem last?_eq_of_rearranged {ms ms' : List (String × α)} (h : Rearranged ms ms')
    (name : String) : last? name ms = last? name ms' := by
  induction h with
  | @swap pre post m m' h =>
    have hone : ¬ (m.1 = name ∧ m'.1 = name) := fun ⟨hm, hm'⟩ => h (hm.trans hm'.symm)
    rw [last?_append, last?_append]
    simp only [last?, Option.or_assoc]
    by_cases hm : m.1 = name
    · have hm' : m'.1 ≠ name := fun hm' => hone ⟨hm, hm'⟩
      simp [hm, hm']
    · simp [hm]
  | @drop pre post m h =>
    rw [last?_append, last?_append, last?]
    by_cases hm : m.1 = name
    · obtain ⟨v, hv⟩ := Option.isSome_iff_exists.mp (isSome_last? (hm ▸ h))
      simp [hv]
    · simp [hm]
  | refl ms => rfl
  | symm _ ih => exact ih.symm
  | trans _ _ ih ih' => exact ih.trans ih'

end Last

/-- **The last member of a name decides.** -/
theorem lookup_fieldsOf (members : List (String × Json)) (name : String) :
    (fieldsOf members).lookup name = (last? name members).bind value? := by
  -- The fields from before are general: each member adds to them or takes away.
  have hfold : ∀ (members : List (String × Json)) (fields : Fields),
      (members.foldl (fun fields m => fields.set m.1 (value? m.2)) fields).lookup name =
        ((last? name members).map value?).getD (fields.lookup name) := by
    intro members
    induction members with
    | nil => exact fun fields => rfl
    | cons m members ih =>
      intro fields
      rw [List.foldl_cons, ih, Fields.lookup_set, last?]
      cases last? name members with
      | some v => rfl
      | none =>
        by_cases hm : m.1 = name
        · rw [if_pos hm, if_pos hm]
          rfl
        · rw [if_neg hm, if_neg hm]
          rfl
  rw [fieldsOf, hfold]
  cases last? name members with
  | some v => rfl
  | none => simp [Fields.lookup]

/-- What stands last under a name in the texts spells what stands last under it in what is read. -/
theorem last?_spells {ms : List (String × List Char)} {members : List (String × Json)}
    (h : List.Forall₂ Spells ms members) (name : String) :
    Option.Rel (Written (Json.maxNesting - 1)) (last? name ms) (last? name members) := by
  induction h with
  | nil => exact .none
  | @cons own m ms members hown _ ih =>
    obtain ⟨hname, hvalue⟩ := hown
    rw [last?, last?, hname]
    generalize last? name ms = text at ih ⊢
    generalize last? name members = v at ih ⊢
    cases ih with
    | some hlast => exact .some hlast
    | none =>
      by_cases hm : m.1 = name
      · rw [if_pos hm, if_pos hm]
        exact .some hvalue
      · rw [if_neg hm, if_neg hm]
        exact .none

/-- The fields of an object, by the texts that stand last. -/
theorem lookup_of_isObject {line : String} {ms : List (String × List Char)}
    (h : IsObject line.toList ms) : ∃ fields, ofLine line = some fields ∧ ∀ name,
      (last? name ms = none ∧ fields.lookup name = none) ∨
        ∃ text v, last? name ms = some text ∧ Written (Json.maxNesting - 1) text v ∧
          fields.lookup name = value? v := by
  obtain ⟨members, hmembers, hspells⟩ := exists_members h
  refine ⟨fieldsOf members, by rw [ofLine, hmembers], fun name => ?_⟩
  rw [lookup_fieldsOf]
  have hlast := last?_spells hspells name
  generalize last? name ms = text at hlast ⊢
  generalize last? name members = v at hlast ⊢
  cases hlast with
  | some hvalue => exact .inr ⟨_, _, rfl, hvalue, rfl⟩
  | none => exact .inl ⟨rfl, rfl⟩

/-! ## Values -/

/-- The text is a string, a number or a truth value. -/
inductive Simple : List Char → Prop
  | string {body cs : List Char} (h : Body body cs) : Simple ('"' :: (body ++ ['"']))
  | number (t : NumberText) : Simple t.text
  | bool (b : Bool) : Simple (toString b).toList

/-- The text is that of null, an array or an object. -/
def IsNoField (text : List Char) : Prop :=
  text = "null".toList ∨ text.head? = some '[' ∨ text.head? = some '\x7b'

/-- The field is the one that the text of a value gives: the string itself, the integer of 64 bits
that is written as one and is not the negative zero, any other number as one of the format, a truth
value as its word, and nothing else. -/
structure Gives (text : List Char) (field : Option Value) : Prop where
  isSome_iff : field.isSome = true ↔ Simple text
  string : ∀ {body cs : List Char}, Body body cs → text = '"' :: (body ++ ['"']) →
    field = some (.string (String.ofList cs))
  integer : ∀ {t : NumberText} {i : Int64}, text = t.text →
    Numeral.integer64? text = some i → text ≠ "-0".toList → field = some (.integer i)
  real : ∀ {t : NumberText}, text = t.text →
    Numeral.integer64? text = none ∨ text = "-0".toList →
    ∃ n x, t.number? = some n ∧ value? (.number n) = some (.float x) ∧ field = some (.float x)
  bool : ∀ {b : Bool}, text = (toString b).toList → field = some (.string (toString b))

theorem written_bool (levels : Nat) (b : Bool) : Written levels (toString b).toList (.bool b) := by
  have hword : ((toString b).toList, Json.bool b) ∈ words := by
    cases b with
    | true => exact List.mem_cons_of_mem _ List.mem_cons_self
    | false => exact List.mem_cons_of_mem _ (List.mem_cons_of_mem _ List.mem_cons_self)
  exact written_of_scalar (.word hword) levels

theorem value?_bool (b : Bool) : value? (.bool b) = some (.string (toString b)) := by
  cases b <;> rfl

theorem value?_real {n : Json.Number} (h : ∀ i, n ≠ .integer i) :
    ∃ x, value? (.number n) = some (.float x) := by
  cases n with
  | integer i => exact absurd rfl (h i)
  | natural m => exact ⟨_, rfl⟩
  | real x => exact ⟨x, rfl⟩

theorem simple_of_isSome {levels : Nat} {text : List Char} {v : Json} (h : Written levels text v)
    (hfield : (value? v).isSome = true) : Simple text := by
  rcases written_cases h with hscalar | ⟨vs, rfl⟩ | ⟨ms, rfl⟩
  · cases hscalar with
    | word hword =>
      have hall : ∀ w ∈ words, (value? w.2).isSome = true →
          ∃ b : Bool, w.1 = (toString b).toList := by
        simp only [words, List.forall_mem_cons]
        exact ⟨fun h => absurd h Bool.false_ne_true, fun _ => ⟨true, rfl⟩, fun _ => ⟨false, rfl⟩,
          fun _ h => absurd h List.not_mem_nil⟩
      obtain ⟨b, rfl⟩ := hall _ hword hfield
      exact .bool b
    | number _ => exact .number _
    | string hbody => exact .string hbody
  · cases hfield
  · cases hfield

/-- **The field that the text of a value gives.** -/
theorem gives_of_written {levels : Nat} {text : List Char} {v : Json} (h : Written levels text v) :
    Gives text (value? v) where
  isSome_iff := by
    refine ⟨simple_of_isSome h, fun hsimple => ?_⟩
    cases hsimple with
    | string hbody =>
      rw [written_unique h (written_of_scalar (.string hbody) levels)]
      rfl
    | number t =>
      obtain ⟨n, -, rfl⟩ := number_of_written h
      obtain ⟨w, hw, -⟩ := NumberText.value?_number n
      rw [hw]
      rfl
    | bool b =>
      rw [written_unique h (written_bool levels b), value?_bool]
      rfl
  string := by
    rintro body cs hbody rfl
    rw [written_unique h (written_of_scalar (.string hbody) levels)]
    rfl
  integer := by
    rintro t i rfl hi hzero
    obtain ⟨n, hn, rfl⟩ := number_of_written h
    cases hn.symm.trans (NumberText.number?_of_integer64? hi hzero)
    rfl
  real := by
    rintro t rfl hnone
    obtain ⟨n, hn, rfl⟩ := number_of_written h
    have hreal : ∀ i, n ≠ .integer i := by
      rintro i rfl
      obtain ⟨hi, hzero⟩ := NumberText.integer64?_of_number? hn
      rcases hnone with hnone | hnone
      · cases hnone.symm.trans hi
      · exact hzero hnone
    obtain ⟨x, hx⟩ := value?_real hreal
    exact ⟨n, x, hn, hx, hx⟩
  bool := by
    rintro b rfl
    rw [written_unique h (written_bool levels b), value?_bool]

theorem not_simple_of_isNoField {text : List Char} (h : IsNoField text) : ¬ Simple text := by
  intro hsimple
  have hhead : text.head? ≠ some 'n' ∧ text.head? ≠ some '[' ∧ text.head? ≠ some '\x7b' := by
    cases hsimple with
    | string _ => simp
    | number t =>
      obtain ⟨c, cs, htext, hc⟩ := t.text_begins
      rw [htext, List.head?_cons]
      rcases hc with hc | rfl
      · exact Lexeme.forall_digit (fun c => some c ≠ some 'n' ∧ some c ≠ some '[' ∧
          some c ≠ some '\x7b') (by decide) hc
      · decide
    | bool b => cases b <;> decide
  rcases h with rfl | h | h
  · exact hhead.1 rfl
  · exact hhead.2.1 h
  · exact hhead.2.2 h

/-! ## Lines -/

theorem verdict_eq {line line' : String} {fields fields' : Fields}
    (h : ofLine line = some fields) (h' : ofLine line' = some fields')
    (hsame : ∀ name, fields.lookup name = fields'.lookup name) (e : Evaluator) :
    Pipeline.verdict e line = Pipeline.verdict e line' := by
  have haccepts : e.accepts fields = e.accepts fields' := by
    rw [Evaluator.accepts, Evaluator.accepts]
    cases e.condition with
    | none => rfl
    | some c => exact Condition.holds_eq_of_agree fun name _ => hsame name
  rw [Pipeline.verdict, Pipeline.verdict, h, h']
  dsimp only
  rw [haccepts]

/-- Objects with the same last texts have the same fields. -/
theorem lookup_eq_of_last? {line line' : String} {ms ms' : List (String × List Char)}
    (h : IsObject line.toList ms) (h' : IsObject line'.toList ms')
    (hlast : ∀ name, last? name ms = last? name ms') :
    ∃ fields fields', ofLine line = some fields ∧ ofLine line' = some fields' ∧
      ∀ name, fields.lookup name = fields'.lookup name := by
  obtain ⟨fields, hfields, hlookup⟩ := lookup_of_isObject h
  obtain ⟨fields', hfields', hlookup'⟩ := lookup_of_isObject h'
  refine ⟨fields, fields', hfields, hfields', fun name => ?_⟩
  rcases hlookup name with ⟨hnone, hfield⟩ | ⟨text, v, htext, hv, hfield⟩
  · rcases hlookup' name with ⟨-, hfield'⟩ | ⟨text', v', htext', -, -⟩
    · rw [hfield, hfield']
    · rw [← hlast, hnone] at htext'
      cases htext'
  · rcases hlookup' name with ⟨hnone', -⟩ | ⟨text', v', htext', hv', hfield'⟩
    · rw [← hlast, htext] at hnone'
      cases hnone'
    · rw [← hlast, htext] at htext'
      cases htext'
      rw [hfield, hfield', written_unique hv hv']

/-- **What the members of a record mean.** A line holds a record just when it is an object, and its
fields are those that the last members of their names give. So every evaluator comes to the same
verdict when members of different names change places, and when a member goes away that another one
of its name follows. No relation holds of a name whose last member is null, an array or an object,
whatever members of the name stand before it. -/
theorem record_of_members (line : String) :
    ((∃ fields, ofLine line = some fields) ↔ ∃ ms, IsObject line.toList ms) ∧
    ∀ ms, IsObject line.toList ms → ∃ fields, ofLine line = some fields ∧
      (∀ name, last? name ms = none → fields.lookup name = none) ∧
      (∀ name text, last? name ms = some text → Gives text (fields.lookup name)) ∧
      (∀ line' ms', IsObject line'.toList ms' → Rearranged ms ms' →
        ∀ e, Pipeline.verdict e line' = Pipeline.verdict e line) ∧
      ∀ name text, last? name ms = some text → IsNoField text →
        ∀ o literal, (Condition.relation o name literal).holds fields = false := by
  constructor
  · constructor
    · rintro ⟨fields, h⟩
      unfold ofLine at h
      split at h
      · next members hmembers => exact exists_isObject hmembers
      · cases h
    · rintro ⟨ms, h⟩
      obtain ⟨fields, hfields, -⟩ := lookup_of_isObject h
      exact ⟨fields, hfields⟩
  intro ms h
  obtain ⟨fields, hfields, hlookup⟩ := lookup_of_isObject h
  have hgives : ∀ name text, last? name ms = some text → Gives text (fields.lookup name) := by
    intro name text htext
    rcases hlookup name with ⟨hnone, -⟩ | ⟨text', v, htext', hv, hfield⟩
    · cases htext.symm.trans hnone
    · cases htext.symm.trans htext'
      exact hfield ▸ gives_of_written hv
  refine ⟨fields, hfields, fun name hnone => ?_, hgives, fun line' ms' h' hms e => ?_,
    fun name text htext hno o literal => ?_⟩
  · rcases hlookup name with ⟨-, hfield⟩ | ⟨text, v, htext, -, -⟩
    · exact hfield
    · cases hnone.symm.trans htext
  · obtain ⟨found, found', hfound, hfound', hsame⟩ :=
      lookup_eq_of_last? h h' (last?_eq_of_rearranged hms)
    exact (verdict_eq hfound hfound' hsame e).symm
  · have hnone : fields.lookup name = none := by
      have hsome := mt (hgives name text htext).isSome_iff.mp (not_simple_of_isNoField hno)
      rwa [Option.not_isSome_iff_eq_none] at hsome
    exact Condition.holds_of_lookup_none hnone o literal

/-- The texts of four members, two of which another one of their name follows. -/
def sampleMembers : List (List Char × List Char) :=
  [(['a'], ['1']), (['b'], ['-', '0']), (['a'], ['[', '2', ']']), (['b'], "true".toList)]

/-- The number under `a` is hidden by the array behind it, and the one under `b` by the truth value.
Without the two the line is filtered in the same way, and so it is when the others change places. -/
theorem record_of_members_sample :
    let line := "\x7b\"a\":1,\"b\":-0,\"a\":[2],\"b\":true\x7d"
    let line' := "\x7b\"b\":true,\"a\":[2]\x7d"
    ∃ fields, ofLine line = some fields ∧ fields.lookup "b" = some (.string "true") ∧
      (∀ o, (Condition.relation o "a" (.integer 1)).holds fields = false) ∧
      ∀ e, Pipeline.verdict e line' = Pipeline.verdict e line := by
  intro line line'
  let a : String × List Char := ("a", "[2]".toList)
  let b : String × List Char := ("b", "true".toList)
  have hline : IsObject line.toList [("a", ['1']), ("b", ['-', '0']), a, b] := by
    have hobject := isObject_objectText (show ∀ m ∈ sampleMembers, _ by decide)
    rwa [show objectText sampleMembers = line.toList by decide] at hobject
  have hline' : IsObject line'.toList [b, a] := by
    have hobject := isObject_objectText (show ∀ m ∈ sampleMembers.reverse.take 2, _ by
      decide)
    rwa [show objectText (sampleMembers.reverse.take 2) = line'.toList by decide] at hobject
  have hrearranged : Rearranged [("a", ['1']), ("b", ['-', '0']), a, b] [b, a] :=
    .trans (.drop [] _ ⟨a, by decide, rfl⟩) (.trans (.drop [] [a, b] ⟨b, by decide, rfl⟩)
      (.swap [] [] (by decide)))
  obtain ⟨fields, hfields, -, hgives, hverdict, hno⟩ := (record_of_members line).2 _ hline
  have hb : fields.lookup "b" = some (.string (toString true)) := (hgives "b" _ rfl).bool rfl
  exact ⟨fields, hfields, hb, fun o => hno "a" _ rfl (.inr (.inl rfl)) o _,
    hverdict line' _ hline' hrearranged⟩

end RecordFilter.Record
