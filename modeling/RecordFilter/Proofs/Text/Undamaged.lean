import RecordFilter.Proofs.Text.Encoded
import RecordFilter.Text.Lossy

/-!
# Decoding undamaged text

Text in UTF-8 is decoded as it is: nothing of it is replaced, whichever characters it holds. The
first byte of a character says how many bytes follow it, and which of the next byte's values are
possible.

* `decodeAfter_utf8EncodeChar`: the bytes of one character;
* `decodeLossy_encode`: the bytes of a text;
* `dropOrderMark_encode`: a text without a mark before it is kept whole.
-/

namespace RecordFilter.Text

theorem toNat_ofNat_of_lt {n : Nat} (h : n < 256) : (UInt8.ofNat n).toNat = n := by
  rw [UInt8.toNat_ofNat', Nat.mod_eq_of_lt h]

/-- The first byte of a character of several bytes. -/
theorem decodeAfter_lead {taken : List Char} {b : UInt8} {l : Lead} (rest : Bytes)
    (hb : 0x80 ≤ b.toNat) (hl : lead? b.toNat = some l) :
    decodeAfter taken none (b :: rest) =
      decodeAfter taken (some ⟨l.bits, l.low, l.high, l.more⟩) rest := by
  rw [decodeAfter, if_neg (by omega), hl]

/-- A byte in the middle of a character. -/
theorem decodeAfter_more {taken : List Char} {b : UInt8} {bits low high more : Nat} (rest : Bytes)
    (hb : low ≤ b.toNat ∧ b.toNat ≤ high) :
    decodeAfter taken (some ⟨bits, low, high, more + 1⟩) (b :: rest) =
      decodeAfter taken (some ⟨bits * 64 + (b.toNat - 0x80), 0x80, 0xBF, more⟩) rest := by
  rw [decodeAfter, if_pos hb]

/-- The last byte of a character. -/
theorem decodeAfter_last {taken : List Char} {b : UInt8} {bits low high : Nat} (rest : Bytes)
    (hb : low ≤ b.toNat ∧ b.toNat ≤ high) :
    decodeAfter taken (some ⟨bits, low, high, 0⟩) (b :: rest) =
      decodeAfter (Char.ofNat (bits * 64 + (b.toNat - 0x80)) :: taken) none rest := by
  rw [decodeAfter, if_pos hb]

theorem lead?_two {n : Nat} (hlow : 0x80 ≤ n) (hhigh : n < 0x800) :
    ∃ l, lead? (n / 64 + 0xC0) = some l ∧ l.bits = n / 64 ∧ l.more = 0 ∧
      l.low ≤ n % 64 + 0x80 ∧ n % 64 + 0x80 ≤ l.high := by
  unfold lead?
  rw [if_pos (by omega)]
  exact ⟨_, rfl, by dsimp only; omega, rfl, by dsimp only; omega, by dsimp only; omega⟩

theorem lead?_three {n : Nat} (hlow : 0x800 ≤ n) (hhigh : n < 0x10000)
    (hvalid : n < 0xD800 ∨ 0xDFFF < n) :
    ∃ l, lead? (n / 4096 + 0xE0) = some l ∧ l.bits = n / 4096 ∧ l.more = 1 ∧
      l.low ≤ n / 64 % 64 + 0x80 ∧ n / 64 % 64 + 0x80 ≤ l.high := by
  unfold lead?
  rw [if_neg (by omega)]
  split_ifs
  · exact ⟨_, rfl, by dsimp only; omega, rfl, by dsimp only; omega, by dsimp only; omega⟩
  · exact ⟨_, rfl, by dsimp only; omega, rfl, by dsimp only; omega, by dsimp only; omega⟩
  · exact ⟨_, rfl, by dsimp only; omega, rfl, by dsimp only; omega, by dsimp only; omega⟩
  all_goals omega

theorem lead?_four {n : Nat} (hlow : 0x10000 ≤ n) (hhigh : n < 0x110000) :
    ∃ l, lead? (n / 262144 + 0xF0) = some l ∧ l.bits = n / 262144 ∧ l.more = 2 ∧
      l.low ≤ n / 4096 % 64 + 0x80 ∧ n / 4096 % 64 + 0x80 ≤ l.high := by
  unfold lead?
  rw [if_neg (by omega), if_neg (by omega), if_neg (by omega), if_neg (by omega)]
  split_ifs
  · exact ⟨_, rfl, by dsimp only; omega, rfl, by dsimp only; omega, by dsimp only; omega⟩
  · exact ⟨_, rfl, by dsimp only; omega, rfl, by dsimp only; omega, by dsimp only; omega⟩
  · exact ⟨_, rfl, by dsimp only; omega, rfl, by dsimp only; omega, by dsimp only; omega⟩
  all_goals omega

/-- **The bytes of a character are decoded to it.** -/
theorem decodeAfter_utf8EncodeChar (c : Char) (taken : List Char) (rest : Bytes) :
    decodeAfter taken none (String.utf8EncodeChar c ++ rest) =
      decodeAfter (c :: taken) none rest := by
  have hvalid : c.toNat < 0xD800 ∨ 0xDFFF < c.toNat ∧ c.toNat < 0x110000 := c.valid
  have hc {n : Nat} (h : n = c.toNat) : Char.ofNat n = c := by rw [h, Char.ofNat_toNat]
  have hval : c.val.toNat = c.toNat := rfl
  unfold String.utf8EncodeChar
  dsimp only
  rw [hval]
  generalize c.toNat = n at hvalid hc
  split_ifs with h1 h2 h3
  · rw [List.singleton_append, decodeAfter, toNat_ofNat_of_lt (by omega), if_pos (by omega), hc rfl]
  · have hb : (UInt8.ofNat (n / 64 % 0x20 + 0xC0)).toNat = n / 64 + 0xC0 := by
      rw [toNat_ofNat_of_lt (by omega)]
      omega
    have hb' : (UInt8.ofNat (n % 0x40 + 0x80)).toNat = n % 64 + 0x80 :=
      toNat_ofNat_of_lt (by omega)
    obtain ⟨l, hl, hbits, hmore, hlow, hhigh⟩ := lead?_two (n := n) (by omega) (by omega)
    rw [List.cons_append, List.singleton_append,
      decodeAfter_lead _ (by omega) (by rw [hb]; exact hl), hmore, decodeAfter_last _ (by omega),
      hb', hbits, hc (by omega)]
  · have hb : (UInt8.ofNat (n / 4096 % 0x10 + 0xE0)).toNat = n / 4096 + 0xE0 := by
      rw [toNat_ofNat_of_lt (by omega)]
      omega
    have hb' : (UInt8.ofNat (n / 64 % 0x40 + 0x80)).toNat = n / 64 % 64 + 0x80 :=
      toNat_ofNat_of_lt (by omega)
    have hb'' : (UInt8.ofNat (n % 0x40 + 0x80)).toNat = n % 64 + 0x80 :=
      toNat_ofNat_of_lt (by omega)
    obtain ⟨l, hl, hbits, hmore, hlow, hhigh⟩ :=
      lead?_three (n := n) (by omega) (by omega) (by omega)
    rw [List.cons_append, List.cons_append, List.singleton_append,
      decodeAfter_lead _ (by omega) (by rw [hb]; exact hl), hmore,
      decodeAfter_more _ (by omega), decodeAfter_last _ (by omega), hb', hb'', hbits, hc (by omega)]
  · have hb : (UInt8.ofNat (n / 262144 % 0x08 + 0xF0)).toNat = n / 262144 + 0xF0 := by
      rw [toNat_ofNat_of_lt (by omega)]
      omega
    have hb' : (UInt8.ofNat (n / 4096 % 0x40 + 0x80)).toNat = n / 4096 % 64 + 0x80 :=
      toNat_ofNat_of_lt (by omega)
    have hb'' : (UInt8.ofNat (n / 64 % 0x40 + 0x80)).toNat = n / 64 % 64 + 0x80 :=
      toNat_ofNat_of_lt (by omega)
    have hb''' : (UInt8.ofNat (n % 0x40 + 0x80)).toNat = n % 64 + 0x80 :=
      toNat_ofNat_of_lt (by omega)
    obtain ⟨l, hl, hbits, hmore, hlow, hhigh⟩ := lead?_four (n := n) (by omega) (by omega)
    rw [List.cons_append, List.cons_append, List.cons_append, List.singleton_append,
      decodeAfter_lead _ (by omega) (by rw [hb]; exact hl), hmore,
      decodeAfter_more _ (by omega), decodeAfter_more _ (by omega), decodeAfter_last _ (by omega),
      hb', hb'', hb''', hbits, hc (by omega)]

theorem decodeAfter_encoded (cs taken : List Char) :
    decodeAfter taken none (cs.flatMap String.utf8EncodeChar) = taken.reverse ++ cs := by
  induction cs generalizing taken with
  | nil => simp [decodeAfter]
  | cons c rest ih =>
    rw [List.flatMap_cons, decodeAfter_utf8EncodeChar, ih]
    simp

/-- **Text in UTF-8 is decoded as it is.** -/
theorem decodeLossy_encode (text : String) : decodeLossy (encode text) = text.toList := by
  rw [decodeLossy, encode_eq, decodeAfter_encoded, List.reverse_nil, List.nil_append]

/-! ## The mark before a text -/

theorem decodeAfter_eq_append (p : Option Partial) (bytes : Bytes) (taken : List Char) :
    decodeAfter taken p bytes = taken.reverse ++ decodeAfter [] p bytes := by
  induction bytes generalizing p taken with
  | nil => cases p <;> simp [decodeAfter]
  | cons b rest ih =>
    have hcons (cs : List Char) (q : Option Partial) :
        decodeAfter (cs ++ taken) q rest = taken.reverse ++ decodeAfter cs q rest := by
      rw [ih q (cs ++ taken), ih q cs, List.reverse_append, List.append_assoc]
    cases p with
    | none =>
      simp only [decodeAfter]
      split
      · exact hcons [_] _
      · split
        · exact hcons [] _
        · exact hcons [_] _
    | some p =>
      simp only [decodeAfter]
      split
      · split
        · exact hcons [_] _
        · exact hcons [] _
      · split
        · exact hcons [_, _] _
        · split
          · exact hcons [_] _
          · exact hcons [_, _] _

theorem dropOrderMark_encode {text : String} (h : text.toList.head? ≠ some '\ufeff') :
    dropOrderMark (encode text) = encode text := by
  refine if_neg fun hprefix => h ?_
  obtain ⟨rest, hrest⟩ := List.isPrefixOf_iff_prefix.mp hprefix
  have hmark : orderMark = String.utf8EncodeChar '\ufeff' := by decide
  rw [← decodeLossy_encode, ← hrest, hmark, decodeLossy, decodeAfter_utf8EncodeChar,
    decodeAfter_eq_append]
  rfl

end RecordFilter.Text
