/-!
# Leading parts of a text

A text that begins with a given spelling is that spelling and a rest, and with the spelling dropped
the rest remains.
-/

namespace RecordFilter.Text

/-- What is left of the text after the spelling that it begins with, if it does. -/
def dropPrefix? : (spelling text : List Char) → Option (List Char)
  | [], text => some text
  | _ :: _, [] => none
  | c :: spelling, d :: text => if c = d then dropPrefix? spelling text else none

theorem dropPrefix?_append : ∀ spelling rest : List Char,
    dropPrefix? spelling (spelling ++ rest) = some rest
  | [], _ => rfl
  | c :: spelling, rest => by
    rw [List.cons_append, dropPrefix?, if_pos rfl]
    exact dropPrefix?_append spelling rest

theorem eq_append_of_dropPrefix? : ∀ {spelling text rest : List Char},
    dropPrefix? spelling text = some rest → text = spelling ++ rest
  | [], _, _, h => Option.some.inj h
  | _ :: _, [], _, h => nomatch h
  | c :: spelling, d :: text, rest, h => by
    rw [dropPrefix?] at h
    split at h
    · next hcd => rw [hcd, eq_append_of_dropPrefix? h, List.cons_append]
    · cases h

end RecordFilter.Text
