import Mathlib
import RecordFilter.Value
import RecordFilter.Proofs.Binary64.Monotone

/-!
# How far the order of values is coherent

Strings are ordered among themselves, and so are numbers. Two integers compare exactly, and every
other pair of numbers by place: an integer counts there as the number nearest to it. Different
integers that have one place are **blurred**. A floating-point number at that place equals both, and
this is the only way in which equality fails to be transitive or to go together with the order.

* `number_cases`: values that compare are two strings or two numbers;
* `compare_at`: two numbers compare by their places;
* `order_coherent`: each law of equality and order, with its exception.
-/

namespace RecordFilter.Value

/-! ## Operators -/

/-- The operator `<`. -/
def less (a b : Value) : Bool := Comparison.lt.holds (a.compare b)

/-- The operator `<=`. -/
def atMost (a b : Value) : Bool := Comparison.leq.holds (a.compare b)

theorem less_iff {a b : Value} : a.less b = true ↔ a.compare b = some .lt := by
  simp [less, Comparison.holds]

theorem atMost_iff {a b : Value} :
    a.atMost b = true ↔ a.compare b = some .lt ∨ a.compare b = some .eq := by
  simp [atMost, Comparison.holds]

/-- Different integers that are rounded to the same number. -/
def Blurred (a b : Value) : Prop :=
  ∃ m n : Int64, a = .integer m ∧ b = .integer n ∧ m ≠ n ∧
    Binary64.ofInt m.toInt = Binary64.ofInt n.toInt

/-! ## Strings -/

theorem string_eq_of_equals {s t : String} (h : (Value.string s).equals (.string t) = true) :
    s = t := by
  rw [equals_iff_compare] at h
  exact Std.LawfulEqOrd.eq_of_compare (Option.some.inj h)

theorem atMost_strings {s t : String} :
    (Value.string s).atMost (.string t) = true ↔ (Ord.compare s t).isLE = true := by
  rw [atMost_iff, compare, Option.some.injEq, Option.some.injEq]
  cases Ord.compare s t <;> decide

theorem exists_compare_of_atMost {a b : Value} (h : a.atMost b = true) :
    ∃ o, a.compare b = some o :=
  (atMost_iff.mp h).elim (fun h => ⟨_, h⟩) fun h => ⟨_, h⟩

/-! ## Numbers -/

/-- The value is the number at the given place. -/
inductive At : Value → Int → Prop
  | integer (n : Int64) : At (.integer n) (Binary64.place n.toInt)
  | float (s : Bool) (r : Binary64.Rank) : At (.float (.signed s r)) (Binary64.key s r)

/-- The value is an integer. -/
def IsInteger (a : Value) : Prop := ∃ n, a = .integer n

/-- Values that compare are two strings or two numbers. -/
theorem number_cases {a b : Value} {o : Ordering} (h : a.compare b = some o) :
    (∃ s t, a = .string s ∧ b = .string t) ∨ ((∃ x, a.At x) ∧ ∃ y, b.At y) := by
  cases a with
  | string s =>
    cases b with
    | string t => exact Or.inl ⟨s, t, rfl, rfl⟩
    | integer n => cases h
    | float y => cases h
  | integer m =>
    cases b with
    | string t => cases h
    | integer n => exact Or.inr ⟨⟨_, .integer m⟩, _, .integer n⟩
    | float y =>
      cases y with
      | nan => cases h
      | signed s r => exact Or.inr ⟨⟨_, .integer m⟩, _, .float s r⟩
  | float x =>
    cases x with
    | nan => cases b <;> cases h
    | signed s r =>
      cases b with
      | string t => cases h
      | integer n => exact Or.inr ⟨⟨_, .float s r⟩, _, .integer n⟩
      | float y =>
        cases y with
        | nan => cases h
        | signed s' r' => exact Or.inr ⟨⟨_, .float s r⟩, _, .float s' r'⟩

section Places
variable {a b c : Value} {x y z : Int}

/-- **Numbers compare by place** unless both are integers. -/
theorem compare_at (ha : a.At x) (hb : b.At y) (h : ¬ (a.IsInteger ∧ b.IsInteger)) :
    a.compare b = some (Ord.compare x y) := by
  cases ha with
  | integer m =>
    cases hb with
    | integer n => exact absurd ⟨⟨m, rfl⟩, ⟨n, rfl⟩⟩ h
    | float s r => rfl
  | float s r =>
    cases hb with
    | integer n => rfl
    | float s' r' => rfl

theorem equals_of_compare {i j : Int} (h : a.compare b = some (Ord.compare i j)) :
    a.equals b = true ↔ i = j := by
  rw [equals_iff_compare, h, Option.some.injEq, compare_eq_iff_eq]

theorem less_of_compare {i j : Int} (h : a.compare b = some (Ord.compare i j)) :
    a.less b = true ↔ i < j := by
  rw [less_iff, h, Option.some.injEq, compare_lt_iff_lt]

theorem atMost_of_compare {i j : Int} (h : a.compare b = some (Ord.compare i j)) :
    a.atMost b = true ↔ i ≤ j := by
  rw [atMost_iff, h, Option.some.injEq, Option.some.injEq, compare_lt_iff_lt, compare_eq_iff_eq,
    Int.le_iff_lt_or_eq]

theorem compare_integers (m n : Int64) :
    (Value.integer m).compare (.integer n) = some (Ord.compare m.toInt n.toInt) := rfl

/-- Numbers in order are in the same order by place, or have one place. -/
theorem place_le_of_atMost (ha : a.At x) (hb : b.At y) (h : a.atMost b = true) : x ≤ y := by
  by_cases hint : a.IsInteger ∧ b.IsInteger
  · obtain ⟨⟨m, rfl⟩, n, rfl⟩ := hint
    cases ha
    cases hb
    exact Binary64.place_mono ((atMost_of_compare (compare_integers m n)).mp h)
  · exact (atMost_of_compare (compare_at ha hb hint)).mp h

theorem place_eq_of_equals (ha : a.At x) (hb : b.At y) (h : a.equals b = true) : x = y := by
  by_cases hint : a.IsInteger ∧ b.IsInteger
  · obtain ⟨⟨m, rfl⟩, n, rfl⟩ := hint
    cases ha
    cases hb
    rw [(equals_of_compare (compare_integers m n)).mp h]
  · exact (equals_of_compare (compare_at ha hb hint)).mp h

theorem atMost_of_less (h : a.less b = true) : a.atMost b = true :=
  atMost_iff.mpr (Or.inl (less_iff.mp h))

theorem Blurred.isInteger (h : Blurred a b) : a.IsInteger ∧ b.IsInteger := by
  obtain ⟨m, n, rfl, rfl, -⟩ := h
  exact ⟨⟨m, rfl⟩, n, rfl⟩

theorem blurred_integers {m n : Int64} :
    Blurred (.integer m) (.integer n) ↔
      m.toInt ≠ n.toInt ∧ Binary64.place m.toInt = Binary64.place n.toInt := by
  constructor
  · rintro ⟨_, _, ⟨⟩, ⟨⟩, hne, hround⟩
    exact ⟨fun heq => hne (Int64.toInt_inj.mp heq), Binary64.ofInt_eq_iff.mp hround⟩
  · rintro ⟨hne, hplace⟩
    exact ⟨m, n, rfl, rfl, fun heq => hne (heq ▸ rfl), Binary64.ofInt_eq_iff.mpr hplace⟩

/-! ## Laws for numbers -/

theorem equals_trans_at (ha : a.At x) (hb : b.At y) (hc : c.At z) (hab : a.equals b = true)
    (hbc : b.equals c = true) : a.equals c = true ↔ ¬ Blurred a c := by
  have hplace : x = z := (place_eq_of_equals ha hb hab).trans (place_eq_of_equals hb hc hbc)
  by_cases hint : a.IsInteger ∧ c.IsInteger
  · obtain ⟨⟨m, rfl⟩, n, rfl⟩ := hint
    cases ha
    cases hc
    rw [equals_of_compare (compare_integers m n), blurred_integers]
    omega
  · rw [equals_of_compare (compare_at ha hc hint)]
    exact iff_of_true hplace fun hblurred => hint hblurred.isInteger

theorem atMost_trans_at (ha : a.At x) (hb : b.At y) (hc : c.At z) (hab : a.atMost b = true)
    (hbc : b.atMost c = true) : a.atMost c = true ↔ ¬ (Blurred a c ∧ c.less a = true) := by
  have hplace : x ≤ z := Int.le_trans (place_le_of_atMost ha hb hab) (place_le_of_atMost hb hc hbc)
  by_cases hint : a.IsInteger ∧ c.IsInteger
  · obtain ⟨⟨m, rfl⟩, n, rfl⟩ := hint
    cases ha
    cases hc
    have hmono : n.toInt ≤ m.toInt → Binary64.place n.toInt ≤ Binary64.place m.toInt :=
      Binary64.place_mono
    rw [atMost_of_compare (compare_integers m n), less_of_compare (compare_integers n m),
      blurred_integers]
    omega
  · rw [atMost_of_compare (compare_at ha hc hint)]
    exact iff_of_true hplace fun hblurred => hint hblurred.1.isInteger

/-- A number equal to the upper of two numbers is above the lower one, and one equal to the lower
is below the upper: the law for both directions `o`. -/
theorem strict_equals_at {o : Ordering} (ho : o ≠ .eq) (ha : a.At x) (hb : b.At y) (hc : c.At z)
    (hab : a.compare b = some o) (hbc : b.equals c = true) :
    a.compare c = some o ↔ ¬ (Blurred a b ∧ a.equals c = true) := by
  have hplace : y = z := place_eq_of_equals hb hc hbc
  have hne : ∀ {i j : Int}, Ord.compare i j = o → i ≠ j := fun h heq =>
    ho (h.symm.trans (compare_eq_iff_eq.mpr heq))
  by_cases hac : a.IsInteger ∧ c.IsInteger
  · obtain ⟨⟨m, rfl⟩, n, rfl⟩ := hac
    have hstrict : Ord.compare m.toInt n.toInt = o := by
      by_cases hint : b.IsInteger
      · obtain ⟨k, rfl⟩ := hint
        rw [compare_integers, Option.some.injEq] at hab
        rwa [← (equals_of_compare (compare_integers k n)).mp hbc]
      · rw [compare_at ha hb fun h => hint h.2, hplace, Option.some.injEq] at hab
        cases ha
        cases hc
        exact Binary64.compare_of_place ho hab
    rw [compare_integers, hstrict, equals_of_compare (compare_integers m n)]
    exact iff_of_true rfl fun h => hne hstrict h.2
  · rw [compare_at ha hc hac, equals_of_compare (compare_at ha hc hac), ← hplace,
      Option.some.injEq]
    by_cases hint : a.IsInteger ∧ b.IsInteger
    · obtain ⟨⟨m, rfl⟩, k, rfl⟩ := hint
      rw [compare_integers, Option.some.injEq] at hab
      cases ha
      cases hb
      rw [blurred_integers]
      by_cases hone : Binary64.place m.toInt = Binary64.place k.toInt
      · exact iff_of_false (fun h => hne h hone) fun h => h ⟨⟨hne hab, hone⟩, hone⟩
      · rw [Binary64.compare_place hone, hab]
        exact iff_of_true rfl fun h => hone h.2
    · rw [compare_at ha hb hint, Option.some.injEq] at hab
      exact iff_of_true hab fun h => hne hab h.2

end Places

/-! ## Laws for all values -/

theorem compare_swap (a b : Value) : b.compare a = (a.compare b).map Ordering.swap := by
  have hint : ∀ i j : Int, Ord.compare j i = (Ord.compare i j).swap :=
    fun _ _ => Std.OrientedOrd.eq_swap
  have hfloat : ∀ x y : Binary64, y.compare x = (x.compare y).map Ordering.swap := by
    intro x y
    cases x with
    | nan => cases y <;> rfl
    | signed s r =>
      cases y with
      | nan => rfl
      | signed s' r' => exact congrArg some (hint _ _)
  cases a with
  | string s =>
    cases b with
    | string t => exact congrArg some Std.OrientedOrd.eq_swap
    | integer n => rfl
    | float y => rfl
  | integer m =>
    cases b with
    | string t => rfl
    | integer n => exact congrArg some (hint _ _)
    | float y => exact hfloat _ y
  | float x =>
    cases b with
    | string t => rfl
    | integer n => exact hfloat x _
    | float y => exact hfloat x y

theorem equals_comm (a b : Value) : b.equals a = a.equals b := by
  rw [equals, equals, compare_swap a b]
  cases a.compare b with
  | none => rfl
  | some o => cases o <;> rfl

theorem compare_swap_iff {a b : Value} {o : Ordering} :
    b.compare a = some o ↔ a.compare b = some o.swap := by
  rw [compare_swap a b, Option.map_eq_some_iff]
  constructor
  · rintro ⟨o', h, rfl⟩
    rw [h, Ordering.swap_swap]
  · intro h
    exact ⟨_, h, Ordering.swap_swap⟩

theorem blurred_comm {a b : Value} : Blurred a b ↔ Blurred b a := by
  have hswap : ∀ {a b : Value}, Blurred a b → Blurred b a := by
    rintro _ _ ⟨m, n, rfl, rfl, hne, hround⟩
    exact ⟨n, m, rfl, rfl, hne.symm, hround.symm⟩
  exact ⟨hswap, hswap⟩

/-- Three values of which the first two and the last two compare are all strings or all numbers. -/
theorem number_cases₃ {a b c : Value} {o o' : Ordering} (hab : a.compare b = some o)
    (hbc : b.compare c = some o') :
    (∃ s t u, a = .string s ∧ b = .string t ∧ c = .string u) ∨
      ∃ x y z, a.At x ∧ b.At y ∧ c.At z := by
  rcases number_cases hab with ⟨s, t, rfl, rfl⟩ | ⟨⟨x, ha⟩, y, hb⟩
  · rcases number_cases hbc with ⟨_, u, -, rfl⟩ | ⟨⟨_, hb⟩, -⟩
    · exact Or.inl ⟨s, t, u, rfl, rfl, rfl⟩
    · cases hb
  · rcases number_cases hbc with ⟨t, u, rfl, -⟩ | ⟨-, z, hc⟩
    · cases hb
    · exact Or.inr ⟨x, y, z, ha, hb, hc⟩

theorem not_blurred_string (s : String) (b : Value) : ¬ Blurred (.string s) b := by
  rintro ⟨m, n, h, -⟩
  cases h

section Laws
variable {a b c : Value}

theorem equals_trans (hab : a.equals b = true) (hbc : b.equals c = true) :
    a.equals c = true ↔ ¬ Blurred a c := by
  rcases number_cases₃ ((equals_iff_compare a b).mp hab) ((equals_iff_compare b c).mp hbc) with
    ⟨s, t, u, rfl, rfl, rfl⟩ | ⟨x, y, z, ha, hb, hc⟩
  · have hst : s = t := string_eq_of_equals hab
    exact iff_of_true (hst ▸ hbc) (not_blurred_string s _)
  · exact equals_trans_at ha hb hc hab hbc

theorem strict_equals {o : Ordering} (ho : o ≠ .eq) (hab : a.compare b = some o)
    (hbc : b.equals c = true) : a.compare c = some o ↔ ¬ (Blurred a b ∧ a.equals c = true) := by
  rcases number_cases₃ hab ((equals_iff_compare b c).mp hbc) with
    ⟨s, t, u, rfl, rfl, rfl⟩ | ⟨x, y, z, ha, hb, hc⟩
  · have htu : t = u := string_eq_of_equals hbc
    exact iff_of_true (htu ▸ hab) fun h => not_blurred_string s _ h.1
  · exact strict_equals_at ho ha hb hc hab hbc

theorem less_equals (hab : a.less b = true) (hbc : b.equals c = true) :
    a.less c = true ↔ ¬ (Blurred a b ∧ a.equals c = true) := by
  rw [less_iff] at hab ⊢
  exact strict_equals (by decide) hab hbc

theorem equals_less (hab : a.equals b = true) (hbc : b.less c = true) :
    a.less c = true ↔ ¬ (Blurred b c ∧ a.equals c = true) := by
  -- Seen from the other side, `c` is above `b`, which equals `a`.
  have hcb : c.compare b = some .gt := compare_swap_iff.mpr (less_iff.mp hbc)
  have hba : b.equals a = true := (equals_comm a b).trans hab
  have hca := strict_equals (by decide) hcb hba
  rw [compare_swap_iff, ← equals_comm c a, blurred_comm] at hca
  rw [less_iff]
  exact hca

theorem atMost_trans (hab : a.atMost b = true) (hbc : b.atMost c = true) :
    a.atMost c = true ↔ ¬ (Blurred a c ∧ c.less a = true) := by
  obtain ⟨o, ho⟩ := exists_compare_of_atMost hab
  obtain ⟨o', ho'⟩ := exists_compare_of_atMost hbc
  rcases number_cases₃ ho ho' with ⟨s, t, u, rfl, rfl, rfl⟩ | ⟨x, y, z, ha, hb, hc⟩
  · rw [atMost_strings] at hab hbc ⊢
    exact iff_of_true (Std.TransCmp.isLE_trans hab hbc) fun h => not_blurred_string s _ h.1
  · exact atMost_trans_at ha hb hc hab hbc

end Laws

theorem not_blurred {m n : Int64} (hm : m.toInt.natAbs ≤ 2 ^ 53) (hn : n.toInt.natAbs ≤ 2 ^ 53) :
    ¬ Blurred (.integer m) (.integer n) := by
  rw [blurred_integers]
  exact fun h => h.1 (Binary64.eq_of_place_eq hm hn h.2)

/-- **How far equality and order are coherent.** Equality is transitive, equal values are below and
above the same values, and "at most" is transitive, with one exception for each law, in which it
does fail: two of the values are different integers that are rounded to the same number, and the
third does not tell them apart. There are no such integers of at most 53 bits. -/
theorem order_coherent (a b c : Value) :
    (a.equals b = true → b.equals c = true → (a.equals c = true ↔ ¬ Blurred a c)) ∧
    (a.less b = true → b.equals c = true →
      (a.less c = true ↔ ¬ (Blurred a b ∧ a.equals c = true))) ∧
    (a.equals b = true → b.less c = true →
      (a.less c = true ↔ ¬ (Blurred b c ∧ a.equals c = true))) ∧
    (a.atMost b = true → b.atMost c = true →
      (a.atMost c = true ↔ ¬ (Blurred a c ∧ c.less a = true))) ∧
    ∀ m n : Int64, m.toInt.natAbs ≤ 2 ^ 53 → n.toInt.natAbs ≤ 2 ^ 53 →
      ¬ Blurred (.integer m) (.integer n) :=
  ⟨equals_trans, less_equals, equals_less, atMost_trans, fun _ _ => not_blurred⟩

/-- The integer one, and two as an integer and as a floating-point number. -/
theorem order_coherent_two :
    let one : Value := .integer 1
    let two : Value := .integer 2
    let two' : Value := .float (.ofInt 2)
    (two.equals two' = true ∧ two'.equals two = true ∧
      (two.equals two = true ↔ ¬ Blurred two two)) ∧
    (one.less two = true ∧ two.equals two' = true ∧
      (one.less two' = true ↔ ¬ (Blurred one two ∧ one.equals two' = true))) ∧
    (one.equals one = true ∧ one.less two' = true ∧
      (one.less two' = true ↔ ¬ (Blurred one two' ∧ one.equals two' = true))) ∧
    (one.atMost two' = true ∧ two'.atMost two = true ∧
      (one.atMost two = true ↔ ¬ (Blurred one two ∧ two.less one = true))) ∧
    ¬ Blurred one two := by
  intro one two two'
  have hequals : two.equals two' = true ∧ two'.equals two = true := by decide +kernel
  have hless : one.less two = true ∧ one.equals one = true ∧ one.less two' = true := by
    decide +kernel
  have hatMost : one.atMost two' = true ∧ two'.atMost two = true := by decide +kernel
  refine ⟨⟨hequals.1, hequals.2, ?_⟩, ⟨hless.1, hequals.1, ?_⟩, ⟨hless.2.1, hless.2.2, ?_⟩,
    ⟨hatMost.1, hatMost.2, ?_⟩, ?_⟩
  · exact (order_coherent two two' two).1 hequals.1 hequals.2
  · exact (order_coherent one two two').2.1 hless.1 hequals.1
  · exact (order_coherent one one two').2.2.1 hless.2.1 hless.2.2
  · exact (order_coherent one two' two).2.2.2.1 hatMost.1 hatMost.2
  · exact (order_coherent one one one).2.2.2.2 1 2 (by decide) (by decide)

/-- **Beyond 53 bits none of the laws holds**: `2 ^ 53` and its successor are told apart, but not by
the floating-point number `2 ^ 53`. -/
theorem order_incoherent :
    let lower : Value := .integer 9007199254740992
    let upper : Value := .integer 9007199254740993
    let number : Value := .float (.ofInt 9007199254740992)
    (upper.equals number = true ∧ number.equals lower = true ∧ upper.equals lower = false) ∧
    (lower.less upper = true ∧ upper.equals number = true ∧ lower.less number = false) ∧
    (number.equals lower = true ∧ lower.less upper = true ∧ number.less upper = false) ∧
    (upper.atMost number = true ∧ number.atMost lower = true ∧ upper.atMost lower = false) := by
  decide +kernel

end RecordFilter.Value
