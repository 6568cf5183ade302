import RecordFilter.Text.Blank

/-!
# Cutting texts at places in bytes

A place in a text is given by the number of UTF-8 bytes before it. A text can be cut only where one
character ends and the next one begins.

* `splitBytes?_byteLength`: a text can be cut behind each of its beginnings.
-/

namespace RecordFilter.Text

/-- The parts of the text before and behind the place, if no character reaches over it. -/
def splitBytes? : Nat → List Char → Option (List Char × List Char)
  | 0, text => some ([], text)
  | _ + 1, [] => none
  | place + 1, c :: rest =>
    if c.utf8Size ≤ place + 1 then
      (splitBytes? (place + 1 - c.utf8Size) rest).map fun (before, behind) => (c :: before, behind)
    else none

/-- The text behind the place. -/
def dropBytes? (place : Nat) (text : List Char) : Option (List Char) :=
  (splitBytes? place text).map Prod.snd

/-- The part of the text from one place to another one, which is not before it. -/
def cut? (first last : Nat) (text : List Char) : Option (List Char) :=
  (dropBytes? first text).bind fun rest => (splitBytes? (last - first) rest).map Prod.fst

theorem splitBytes?_byteLength (before behind : List Char) :
    splitBytes? (byteLength before) (before ++ behind) = some (before, behind) := by
  induction before with
  | nil => simp [byteLength, splitBytes?]
  | cons c before ih =>
    obtain ⟨n, hn⟩ : ∃ n, byteLength (c :: before) = n + 1 :=
      ⟨_, (Nat.succ_pred_eq_of_pos (byteLength_pos c before)).symm⟩
    have hlen := byteLength_cons c before
    have hrest : n + 1 - c.utf8Size = byteLength before := by omega
    rw [hn, List.cons_append, splitBytes?, if_pos (by omega), hrest, ih]
    rfl

end RecordFilter.Text
