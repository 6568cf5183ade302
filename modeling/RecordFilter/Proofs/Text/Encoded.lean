import Mathlib
import RecordFilter.Proofs.Text.Lines

/-!
# Lines of encoded texts

In UTF-8 a line feed and a carriage return are bytes of their own, and no other character has such
a byte in it. So the lines of a text that is encoded are texts, without line feeds. Lines that are
written with a line feed each are read back one by one, but a line that ends with a carriage return
is read back without it.

* `eq_of_mem_utf8EncodeChar`: an ASCII byte stands for itself alone;
* `exists_lines`: the lines of an encoded text;
* `splitLines_encodeLine`: the lines of lines that were written.
-/

namespace RecordFilter.Text

/-! ## Bytes and characters -/

theorem eq_of_mem_utf8EncodeChar {b : UInt8} {c : Char} (hb : b.toNat < 128)
    (h : b ∈ String.utf8EncodeChar c) : String.utf8EncodeChar c = [b] ∧ c.toNat = b.toNat := by
  have hhigh : ∀ n, 128 ≤ n → n < 256 → b ≠ UInt8.ofNat n := by
    rintro n hn hlt rfl
    rw [UInt8.toNat_ofNat'] at hb
    omega
  unfold String.utf8EncodeChar at h ⊢
  dsimp only at h ⊢
  split at h
  · next hc =>
    obtain rfl := List.mem_singleton.mp h
    have hlt : c.toNat < 2 ^ 8 := Nat.lt_of_le_of_lt hc (by decide)
    rw [if_pos hc, UInt8.toNat_ofNat']
    exact ⟨rfl, (Nat.mod_eq_of_lt hlt).symm⟩
  · exfalso
    -- Of a longer code every byte has its highest bit set.
    split at h
    · simp only [List.mem_cons, List.not_mem_nil, or_false] at h
      rcases h with h | h <;> exact hhigh _ (by omega) (by omega) h
    · split at h
      · simp only [List.mem_cons, List.not_mem_nil, or_false] at h
        rcases h with h | h | h <;> exact hhigh _ (by omega) (by omega) h
      · simp only [List.mem_cons, List.not_mem_nil, or_false] at h
        rcases h with h | h | h | h <;> exact hhigh _ (by omega) (by omega) h

theorem eq_lineFeed_of_mem {c : Char} (h : lineFeed ∈ String.utf8EncodeChar c) : c = '\n' :=
  Char.toNat_inj.mp (eq_of_mem_utf8EncodeChar (by decide) h).2

theorem eq_carriageReturn_of_mem {c : Char} (h : carriageReturn ∈ String.utf8EncodeChar c) :
    c = '\r' := Char.toNat_inj.mp (eq_of_mem_utf8EncodeChar (by decide) h).2

theorem encode_eq (text : String) : encode text = text.toList.flatMap String.utf8EncodeChar := by
  rw [encode, String.toUTF8, ← String.utf8Encode_toList, List.utf8Encode, List.data_toByteArray]

theorem encode_ofList_append (cs ds : List Char) :
    encode (String.ofList (cs ++ ds)) = encode (String.ofList cs) ++ encode (String.ofList ds) := by
  simp [encode_eq]

theorem lineFeed_not_mem_encode {text : String} (h : '\n' ∉ text.toList) :
    lineFeed ∉ encode text := by
  rw [encode_eq, List.mem_flatMap]
  rintro ⟨c, hc, hmem⟩
  exact h (eq_lineFeed_of_mem hmem ▸ hc)

/-! ## Carriage returns -/

/-- The line without the carriage return that it may end with. -/
def withoutReturn (line : String) : String :=
  if line.toList.getLast? = some '\r' then String.ofList line.toList.dropLast else line

theorem withoutReturn_concat (cs : List Char) (c : Char) :
    withoutReturn (String.ofList (cs ++ [c])) =
      if c = '\r' then String.ofList cs else String.ofList (cs ++ [c]) := by
  simp [withoutReturn]

theorem eq_empty_or_concat (text : String) :
    text = "" ∨ ∃ cs c, text = String.ofList (cs ++ [c]) := by
  rcases List.eq_nil_or_concat text.toList with h | ⟨cs, c, h⟩
  · exact Or.inl (String.toList_eq_nil_iff.mp h)
  · refine Or.inr ⟨cs, c, ?_⟩
    rw [← List.concat_eq_append, ← h, String.ofList_toList]

theorem mem_of_mem_withoutReturn {text : String} {c : Char}
    (h : c ∈ (withoutReturn text).toList) : c ∈ text.toList := by
  unfold withoutReturn at h
  split at h
  · rw [String.toList_ofList] at h
    exact List.mem_of_mem_dropLast h
  · exact h

theorem dropReturn_encode (text : String) :
    dropReturn (encode text) = encode (withoutReturn text) := by
  rcases eq_empty_or_concat text with rfl | ⟨cs, c, rfl⟩
  · rfl
  · rw [withoutReturn_concat, encode_ofList_append, dropReturn]
    by_cases hc : c = '\r'
    · subst hc
      have hreturn : encode (String.ofList ['\r']) = [carriageReturn] := rfl
      rw [hreturn, if_pos rfl, List.getLast?_concat, if_pos rfl, List.dropLast_concat]
    · have hlast : (encode (String.ofList cs) ++ encode (String.ofList [c])).getLast? ≠
          some carriageReturn := by
        intro hlast
        have hne : String.utf8EncodeChar c ≠ [] := String.utf8EncodeChar_ne_nil
        rw [encode_eq (String.ofList [c]), String.toList_ofList, List.flatMap_singleton,
          List.getLast?_append_of_ne_nil _ hne] at hlast
        exact hc (eq_carriageReturn_of_mem (List.mem_of_getLast? hlast))
      rw [if_neg hc, if_neg hlast, encode_ofList_append]

/-! ## Lines -/

/-- The parts between the line feeds of an encoded text are texts. -/
theorem exists_parts (cs : List Char) :
    ∃ parts : List String, (encode (String.ofList cs)).splitOn lineFeed = parts.map encode ∧
      ∀ part ∈ parts, '\n' ∉ part.toList := by
  by_cases h : '\n' ∈ cs
  · obtain ⟨before, after, rfl, hbefore⟩ := List.eq_append_cons_of_mem h
    obtain ⟨parts, hparts, hlines⟩ := exists_parts after
    have hfirst : '\n' ∉ (String.ofList before).toList := by rwa [String.toList_ofList]
    refine ⟨String.ofList before :: parts, ?_, List.forall_mem_cons.mpr ⟨hfirst, hlines⟩⟩
    have hfeed : encode (String.ofList ('\n' :: after)) =
        lineFeed :: encode (String.ofList after) := by
      rw [← List.singleton_append, encode_ofList_append]
      rfl
    rw [encode_ofList_append, hfeed,
      List.splitOn_append_cons_self_of_not_mem (lineFeed_not_mem_encode hfirst), hparts,
      List.map_cons]
  · have hone : '\n' ∉ (String.ofList cs).toList := by rwa [String.toList_ofList]
    refine ⟨[String.ofList cs], ?_, List.forall_mem_singleton.mpr hone⟩
    exact List.splitOn_eq_singleton (lineFeed_not_mem_encode hone)
termination_by cs.length

theorem exists_linesOfParts : ∀ {parts : List String}, (∀ part ∈ parts, '\n' ∉ part.toList) →
    ∃ texts : List String, linesOfParts (parts.map encode) = texts.map encode ∧
      ∀ line ∈ texts, '\n' ∉ line.toList
  | [], _ => ⟨[], rfl, nofun⟩
  | [last], h => by
    by_cases hlast : encode last = []
    · exact ⟨[], by simp [linesOfParts, hlast], nofun⟩
    · exact ⟨[last], by simp [linesOfParts, hlast], h⟩
  | part :: next :: more, h => by
    obtain ⟨hpart, hrest⟩ := List.forall_mem_cons.mp h
    obtain ⟨texts, htexts, hlines⟩ := exists_linesOfParts hrest
    refine ⟨withoutReturn part :: texts, ?_, List.forall_mem_cons.mpr ⟨?_, hlines⟩⟩
    · rw [List.map_cons, linesOfParts_cons _ (by simp), htexts, dropReturn_encode, List.map_cons]
    · exact fun hmem => hpart (mem_of_mem_withoutReturn hmem)

/-- **The lines of an encoded text** are texts without line feeds. -/
theorem exists_lines (text : String) :
    ∃ texts : List String, splitLines (encode text) = texts.map encode ∧
      ∀ line ∈ texts, '\n' ∉ line.toList := by
  obtain ⟨parts, hparts, hlines⟩ := exists_parts text.toList
  rw [String.ofList_toList] at hparts
  rw [splitLines, hparts]
  exact exists_linesOfParts hlines

/-- **Written lines are read back one by one**, less a carriage return at the end of each. -/
theorem splitLines_encodeLine : ∀ {texts : List String}, (∀ line ∈ texts, '\n' ∉ line.toList) →
    splitLines (texts.flatMap encodeLine) = (texts.map withoutReturn).map encode
  | [], _ => rfl
  | line :: texts, h => by
    obtain ⟨hline, hrest⟩ := List.forall_mem_cons.mp h
    have hsplit : ((line :: texts).flatMap encodeLine).splitOn lineFeed =
        encode line :: (texts.flatMap encodeLine).splitOn lineFeed := by
      rw [List.flatMap_cons, encodeLine, List.append_assoc, List.singleton_append,
        List.splitOn_append_cons_self_of_not_mem (lineFeed_not_mem_encode hline)]
    have hlines := splitLines_encodeLine hrest
    rw [splitLines] at hlines ⊢
    rw [hsplit, linesOfParts_cons _ (List.splitOn_ne_nil _ _), hlines, dropReturn_encode]
    rfl

end RecordFilter.Text
