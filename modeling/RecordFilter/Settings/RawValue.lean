import RecordFilter.Decimal.Layout

/-!
# Values of settings as they are given

A setting is given by a text, or by something that has been recognised as another kind of value.
Each setting asks for a kind of its own, and what is given is converted to it where that makes
sense: every scalar but null is a text, numbers and a few words are a count, and only a truth value
is a flag. A value that has parts is none of these.

* `toCount_lt`: a count fits into 64 bits.
-/

namespace RecordFilter

/-- The value of a setting as its source gives it. -/
inductive RawValue where
  | null
  | bool (b : Bool)
  | integer (n : Int64)
  /-- A natural number that may be too large for an integer. -/
  | natural (n : UInt64)
  | real (x : Binary64)
  | text (s : String)
  /-- A list or a table, whatever is in it. -/
  | composite
  deriving DecidableEq

namespace RawValue

/-- The largest count. -/
def maxCount : Nat := UInt64.size - 1

/-- The text that the value is, where null stands for no text; there is no answer when it is
neither. -/
def toText? : RawValue → Option (Option String)
  | .null => some none
  | .bool true => some (some "true")
  | .bool false => some (some "false")
  | .integer n => some (some (String.ofList (Numeral.ofInt n.toInt)))
  | .natural n => some (some (String.ofList (Numeral.ofInt n.toNat)))
  | .real x => some (some (x.text .plain))
  | .text s => some (some s)
  | .composite => none

/-- The truth value that the value is; nothing else is taken for one. -/
def toFlag? : RawValue → Option Bool
  | .bool b => some b
  | _ => none

/-- The number rounded to the nearest count, a half away from zero. What lies below or above all
counts becomes the least or the largest, and what is no number becomes zero. -/
def nearestCount : Binary64 → Nat
  | .nan => 0
  | .signed true _ => 0
  | .signed false r =>
    min maxCount
      ((2 * r.units + Binary64.Rank.unitsPerOne) / (2 * Binary64.Rank.unitsPerOne))

/-- The words that stand for one. -/
def onWords : List (List Char) := ["true".toList, "on".toList, "yes".toList]

/-- The words that stand for zero. -/
def offWords : List (List Char) := ["false".toList, "off".toList, "no".toList]

/-- The count that a text stands for: a word in any case, or digits. -/
def countOfText? (text : List Char) : Option Nat :=
  let word := text.map Char.toLower
  if onWords.contains word then some 1
  else if offWords.contains word then some 0
  else Numeral.natural64? text

/-- The count that the value stands for, where null stands for no count; there is no answer when it
stands for neither. -/
def toCount? : RawValue → Option (Option Nat)
  | .null => some none
  | .bool b => some (some (if b then 1 else 0))
  | .integer n => if 0 ≤ n.toInt then some (some n.toInt.toNat) else none
  | .natural n => some (some n.toNat)
  | .real x => some (some (nearestCount x))
  | .text s => (countOfText? s.toList).map some
  | .composite => none

theorem nearestCount_le (x : Binary64) : nearestCount x ≤ maxCount := by
  rcases x with _ | ⟨_ | _, r⟩
  · exact Nat.zero_le _
  · exact Nat.min_le_left _ _
  · exact Nat.zero_le _

theorem countOfText?_le {text : List Char} {n : Nat} (h : countOfText? text = some n) :
    n ≤ maxCount := by
  simp only [countOfText?] at h
  split at h
  · exact Option.some.inj h ▸ (by decide)
  · split at h
    · exact Option.some.inj h ▸ (by decide)
    · exact Nat.le_pred_of_lt (Numeral.natural64?_lt h)

theorem toCount_lt {v : RawValue} {n : Nat} (h : v.toCount? = some (some n)) : n < UInt64.size := by
  have key : n ≤ maxCount := by
    cases v with
    | null => simp [toCount?] at h
    | bool b => cases b <;> simp [toCount?] at h <;> subst h <;> decide
    | integer i =>
      simp only [toCount?] at h
      split at h
      · have := i.toInt_lt
        have hn := Option.some.inj (Option.some.inj h)
        simp only [maxCount, UInt64.size]
        omega
      · cases h
    | natural i =>
      have := i.toNat_lt
      have hn := Option.some.inj (Option.some.inj h)
      simp only [maxCount, UInt64.size]
      omega
    | real x => exact Option.some.inj (Option.some.inj h) ▸ nearestCount_le x
    | text t =>
      obtain ⟨m, hm, hmn⟩ := Option.map_eq_some_iff.mp h
      exact Option.some.inj hmn ▸ countOfText?_le hm
    | composite => cases h
  exact Nat.lt_of_le_of_lt key (by decide)

end RawValue

end RecordFilter
