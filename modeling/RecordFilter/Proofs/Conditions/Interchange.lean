import Mathlib
import RecordFilter.Condition.Eval
import RecordFilter.Condition.Parser
import RecordFilter.Proofs.Values.Order

/-!
# Whether equal conditions hold of the same records

Conditions are equal when they differ at most in their literals, and these are equal as values.
Equal literals compare in the same way with every value but one kind: an integer that is
**confused** by them, because one literal is another integer, the other one is the floating-point
number equal to it, and that is also what the value is rounded to. So equal conditions hold of the
same records, except where a record confuses a pair of their literals.

* `compare_congr`: equal literals and a value that they do not confuse;
* `equals_ne_of_confuses`: a value that they confuse equals one of them only;
* `holds_of_equals`: equal conditions on one record.
-/

namespace RecordFilter

namespace Value
variable {v w x : Value}

/-- One of the two literals, which are not the same, is an integer, and the value is another one
that is rounded to the same number. -/
def Confuses (x v w : Value) : Prop := v ≠ w ∧ (Blurred x v ∨ Blurred x w)

theorem compare_eq_some_congr (h : v.equals w = true) (hv : ¬ Blurred x v) (hw : ¬ Blurred x w)
    {o : Ordering} (ho : x.compare v = some o) : x.compare w = some o := by
  by_cases heq : o = .eq
  · subst heq
    rw [← equals_iff_compare] at ho ⊢
    exact (equals_trans ho h).mpr hw
  · exact (strict_equals heq ho h).mpr fun hblurred => hv hblurred.1

/-- **Equal literals compare alike** with a value that they do not confuse. -/
theorem compare_congr (h : v.equals w = true) (hx : ¬ x.Confuses v w) :
    x.compare v = x.compare w := by
  by_cases hsame : v = w
  · rw [hsame]
  · have hv : ¬ Blurred x v := fun hblurred => hx ⟨hsame, Or.inl hblurred⟩
    have hw : ¬ Blurred x w := fun hblurred => hx ⟨hsame, Or.inr hblurred⟩
    have hwv : w.equals v = true := (equals_comm v w).trans h
    exact Option.ext fun o =>
      ⟨compare_eq_some_congr h hv hw, compare_eq_some_congr hwv hw hv⟩

/-- A value that is blurred with one of two equal literals, which are not the same, equals the other
one and not this one. -/
theorem equals_of_blurred (h : v.equals w = true) (hne : v ≠ w) (hx : Blurred x v) :
    x.equals v = false ∧ x.equals w = true := by
  obtain ⟨m, n, rfl, rfl, hmn, hround⟩ := hx
  obtain ⟨-, z, hw⟩ : (∃ y, (Value.integer n).At y) ∧ ∃ z, w.At z :=
    (number_cases ((equals_iff_compare _ _).mp h)).resolve_left nofun
  have hfloat : ¬ w.IsInteger := by
    rintro ⟨k, rfl⟩
    rw [equals_of_compare (compare_integers n k)] at h
    exact hne (congrArg Value.integer (Int64.toInt_inj.mp h))
  constructor
  · rw [Bool.eq_false_iff, ne_eq, equals_of_compare (compare_integers m n), Int64.toInt_inj]
    exact hmn
  · rw [equals_of_compare (compare_at (.integer m) hw fun hint => hfloat hint.2),
      Binary64.ofInt_eq_iff.mp hround]
    exact place_eq_of_equals (.integer n) hw h

/-- **A confused value equals one of the literals only.** -/
theorem equals_ne_of_confuses (h : v.equals w = true) (hx : x.Confuses v w) :
    x.equals v ≠ x.equals w := by
  obtain ⟨hne, hv | hw⟩ := hx
  · obtain ⟨hfalse, htrue⟩ := equals_of_blurred h hne hv
    simp [hfalse, htrue]
  · obtain ⟨hfalse, htrue⟩ := equals_of_blurred ((equals_comm v w).trans h) hne.symm hw
    simp [hfalse, htrue]

end Value

namespace Condition

/-- The value of a field is confused by the literals that two relations, which stand in the same
place of the two conditions, have for it. -/
inductive Confused (fields : Fields) : Condition → Condition → Prop
  | relation {o o' : Comparison} {f f' : String} {v v' x : Value} (found : fields.lookup f = some x)
    (confuses : x.Confuses v v') : Confused fields (.relation o f v) (.relation o' f' v')
  | left {o o' : Connective} {l l' r r' : Condition} (left : Confused fields l l') :
    Confused fields (.join o l r) (.join o' l' r')
  | right {o o' : Connective} {l l' r r' : Condition} (right : Confused fields r r') :
    Confused fields (.join o l r) (.join o' l' r')

theorem holds_relation (o : Comparison) (f : String) (v : Value) (fields : Fields) :
    holds (.relation o f v) fields = (fields.lookup f).any fun x => o.holds (x.compare v) := by
  rw [holds]
  cases fields.lookup f <;> rfl

/-- Equal conditions hold of the same records, those apart that confuse a pair of literals. -/
theorem holds_congr {fields : Fields} : ∀ {c d : Condition}, c.equals d = true →
    ¬ Confused fields c d → c.holds fields = d.holds fields
  | .relation o f v, .relation o' f' v', h, hclear => by
    simp only [equals, Bool.and_eq_true, beq_iff_eq] at h
    obtain ⟨⟨rfl, rfl⟩, hv⟩ := h
    rw [holds_relation, holds_relation]
    cases hx : fields.lookup f with
    | none => rfl
    | some x =>
      rw [Option.any_some, Option.any_some,
        Value.compare_congr hv fun hconfuses => hclear (.relation hx hconfuses)]
  | .join o l r, .join o' l' r', h, hclear => by
    simp only [equals, Bool.and_eq_true, beq_iff_eq] at h
    obtain ⟨⟨rfl, hl⟩, hr⟩ := h
    rw [holds_join, holds_join, holds_congr hl fun hconfused => hclear (.left hconfused),
      holds_congr hr fun hconfused => hclear (.right hconfused)]
  | .relation _ _ _, .join _ _ _, h, _ => by cases h
  | .join _ _ _, .relation _ _ _, h, _ => by cases h

/-- **Equal conditions hold of the same records**, unless the record confuses a pair of their
literals; and the record does tell two equations apart whose literals it confuses. -/
theorem holds_of_equals {c d : Condition} (h : c.equals d = true) (fields : Fields) :
    (¬ Confused fields c d → c.holds fields = d.holds fields) ∧
      ∀ f v w, c = .relation .eq f v → d = .relation .eq f w → Confused fields c d →
        c.holds fields ≠ d.holds fields := by
  refine ⟨holds_congr h, ?_⟩
  rintro f v w rfl rfl hconfused
  simp only [equals, Bool.and_eq_true] at h
  cases hconfused with
  | relation found confuses =>
    rw [holds_relation, holds_relation, found]
    exact Value.equals_ne_of_confuses h.2 confuses

/-- The field `f` of a record with no other. -/
def onlyField (v : Value) : Fields := Fields.set ∅ "f" (some v)

/-- The relation of the field `f` with a literal that `eq` stands before. -/
def equation (v : Value) : Condition := .relation .eq "f" v

theorem not_confused_equation {x v w : Value} (h : ¬ x.Confuses v w) :
    ¬ Confused (onlyField x) (equation v) (equation w) := by
  intro hconfused
  cases hconfused with
  | relation found confuses =>
    rw [onlyField, Fields.lookup_set, if_pos rfl] at found
    exact h (Option.some.inj found ▸ confuses)

/-- The literals `1` and `1.0` on a record that holds one, and two literals that confuse the value
of the field. -/
theorem holds_of_equals_one :
    let one := equation (.integer 1)
    let one' := equation (.float (.ofInt 1))
    let many := equation (.integer 9007199254740993)
    let many' := equation (.float (.ofInt 9007199254740992))
    let value : Value := .integer 9007199254740992
    (one.equals one' = true ∧ ¬ Confused (onlyField (.integer 1)) one one' ∧
      one.holds (onlyField (.integer 1)) = one'.holds (onlyField (.integer 1))) ∧
    (many.equals many' = true ∧ Confused (onlyField value) many many' ∧
      many.holds (onlyField value) ≠ many'.holds (onlyField value)) := by
  intro one one' many many' value
  have hone : one.equals one' = true := by decide +kernel
  have hmany : many.equals many' = true := by decide +kernel
  have hclear : ¬ Confused (onlyField (.integer 1)) one one' := by
    refine not_confused_equation ?_
    rintro ⟨-, ⟨m, n, ⟨⟩, ⟨⟩, hne, -⟩ | ⟨m, n, -, h, -⟩⟩
    · exact hne rfl
    · cases h
  have hconfused : Confused (onlyField value) many many' := by
    have hfound : (onlyField value).lookup "f" = some value := by decide +kernel
    refine .relation hfound ⟨nofun, Or.inl ⟨_, _, rfl, rfl, ?_, ?_⟩⟩ <;> decide +kernel
  exact ⟨⟨hone, hclear, (holds_of_equals hone _).1 hclear⟩,
    ⟨hmany, hconfused, (holds_of_equals hmany _).2 "f" _ _ rfl rfl hconfused⟩⟩

/-- **Equal conditions are not interchangeable**: two expressions are read as equal conditions, and
only one of them holds of the record. -/
theorem equals_not_interchangeable :
    let many := equation (.integer 9007199254740993)
    let many' := equation (.float (.ofInt 9007199254740992))
    let fields := onlyField (.integer 9007199254740992)
    parse false "f eq 9007199254740993" = .ok (some many) ∧
      parse false "f eq 9007199254740992.0" = .ok (some many') ∧
      many.equals many' = true ∧ many.holds fields = false ∧ many'.holds fields = true := by
  decide +kernel

end Condition

end RecordFilter
