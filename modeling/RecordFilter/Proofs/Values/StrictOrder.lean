import Mathlib
import RecordFilter.Proofs.Values.Order

/-!
# The strict order of values

Although equality of values is not transitive, "less than" is a strict order of all values, whatever
their kinds: an integer step may vanish when it is rounded, but it never turns round. So of two
steps, at least one of which is seen by place, the places tell the same as the values.

* `place_lt_of_less`: a step that is not between two integers is a step from place to place;
* `less_trans`: "less than" is transitive;
* `order_strict`: the laws of the strict order.
-/

namespace RecordFilter.Value

variable {a b c : Value}

/-! ## One value -/

theorem less_irrefl (a : Value) : a.less a = false := by
  rw [Bool.eq_false_iff]
  intro h
  have hswap : a.compare a = some .gt := compare_swap_iff.mpr (less_iff.mp h)
  rw [less_iff.mp h] at hswap
  cases hswap

/-! ## Two values -/

theorem compare_eq_none_comm : b.compare a = none ↔ a.compare b = none := by
  rw [compare_swap a b, Option.map_eq_none_iff]

section Places
variable {x y z : Int}

/-- A step that is not between two integers is a step from place to place. -/
theorem place_lt_of_less (ha : a.At x) (hb : b.At y) (hint : ¬ (a.IsInteger ∧ b.IsInteger))
    (h : a.less b = true) : x < y :=
  (less_of_compare (compare_at ha hb hint)).mp h

theorem place_le_of_less (ha : a.At x) (hb : b.At y) (h : a.less b = true) : x ≤ y :=
  place_le_of_atMost ha hb (atMost_of_less h)

/-! ## Three values -/

theorem less_trans_integers {m n : Int64} (hb : b.At y) (hab : (integer m).less b = true)
    (hbc : b.less (integer n) = true) : (integer m).less (integer n) = true := by
  rw [less_of_compare (compare_integers m n)]
  by_cases hint : b.IsInteger
  · obtain ⟨k, rfl⟩ := hint
    have hmk := (less_of_compare (compare_integers m k)).mp hab
    have hkn := (less_of_compare (compare_integers k n)).mp hbc
    exact hmk.trans hkn
  · -- The number between them separates their places, and rounding turns no step round.
    have hplaces : Binary64.place m.toInt < Binary64.place n.toInt :=
      (place_lt_of_less (.integer m) hb (fun h => hint h.2) hab).trans
        (place_lt_of_less hb (.integer n) (fun h => hint h.1) hbc)
    exact lt_of_not_ge fun hle => not_le_of_gt hplaces (Binary64.place_mono hle)

theorem less_trans_at (ha : a.At x) (hb : b.At y) (hc : c.At z) (hab : a.less b = true)
    (hbc : b.less c = true) : a.less c = true := by
  by_cases hac : a.IsInteger ∧ c.IsInteger
  · obtain ⟨⟨m, rfl⟩, n, rfl⟩ := hac
    exact less_trans_integers hb hab hbc
  · rw [less_of_compare (compare_at ha hc hac)]
    by_cases hint : a.IsInteger ∧ b.IsInteger
    · calc x ≤ y := place_le_of_less ha hb hab
        _ < z := place_lt_of_less hb hc (fun h => hac ⟨hint.1, h.2⟩) hbc
    · calc x < y := place_lt_of_less ha hb hint hab
        _ ≤ z := place_le_of_less hb hc hbc

end Places

/-- **"Less than" is transitive** for values of any kinds. -/
theorem less_trans (hab : a.less b = true) (hbc : b.less c = true) : a.less c = true := by
  rcases number_cases₃ (less_iff.mp hab) (less_iff.mp hbc) with
    ⟨s, t, u, rfl, rfl, rfl⟩ | ⟨x, y, z, ha, hb, hc⟩
  · rw [less_iff, compare, Option.some.injEq] at hab hbc ⊢
    exact Std.TransCmp.lt_trans hab hbc
  · exact less_trans_at ha hb hc hab hbc

/-- **The order of values is strict, across all kinds.** Comparing the other way round gives the
reverse answer, or no answer either way; no value is less than itself; and a value less than one
that is less than a third is less than the third. -/
theorem order_strict (a b c : Value) :
    b.compare a = (a.compare b).map Ordering.swap ∧
    (b.compare a = none ↔ a.compare b = none) ∧
    a.less a = false ∧
    (a.less b = true → b.less c = true → a.less c = true) :=
  ⟨compare_swap a b, compare_eq_none_comm, less_irrefl a, less_trans⟩

/-- Two integers that are rounded down and up, on both sides of a number that is exact. -/
theorem order_strict_between :
    let below : Value := .integer 9007199254740993
    let number : Value := .float (.ofInt 9007199254740994)
    let above : Value := .integer 9007199254740995
    below.less number = true ∧ number.less above = true ∧ below.less above = true := by
  intro below number above
  have hbelow : below.less number = true := by decide +kernel
  have habove : number.less above = true := by decide +kernel
  exact ⟨hbelow, habove, (order_strict below number above).2.2.2 hbelow habove⟩

end RecordFilter.Value
