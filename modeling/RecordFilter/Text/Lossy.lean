import RecordFilter.Text.Lines

/-!
# Decoding without refusal

Bytes that are not valid UTF-8 can be read all the same: each longest sequence of bytes that begins
a character and is then broken off, and each byte that begins none, becomes one replacement
character.
-/

namespace RecordFilter.Text

/-- What stands for bytes that are no character. -/
def replacement : Char := '\ufffd'

/-- The bytes that may follow the first byte of a character: the range of the next one, how many
follow it, and the bits of the first byte that count. -/
structure Lead where
  low : Nat
  high : Nat
  more : Nat
  bits : Nat

/-- What the first byte of a character of several bytes asks for. -/
def lead? (byte : Nat) : Option Lead :=
  if 0xC2 ≤ byte ∧ byte ≤ 0xDF then some ⟨0x80, 0xBF, 0, byte - 0xC0⟩
  else if byte = 0xE0 then some ⟨0xA0, 0xBF, 1, byte - 0xE0⟩
  else if byte = 0xED then some ⟨0x80, 0x9F, 1, byte - 0xE0⟩
  else if 0xE1 ≤ byte ∧ byte ≤ 0xEF then some ⟨0x80, 0xBF, 1, byte - 0xE0⟩
  else if byte = 0xF0 then some ⟨0x90, 0xBF, 2, byte - 0xF0⟩
  else if 0xF1 ≤ byte ∧ byte ≤ 0xF3 then some ⟨0x80, 0xBF, 2, byte - 0xF0⟩
  else if byte = 0xF4 then some ⟨0x80, 0x8F, 2, byte - 0xF0⟩
  else none

/-- A character of which some bytes are read: the bits so far, and what has to follow. -/
structure Partial where
  bits : Nat
  low : Nat
  high : Nat
  more : Nat

/-- Decodes the bytes that follow, behind the characters `taken` (the last one first) and perhaps a
character of which some bytes are read. -/
def decodeAfter (taken : List Char) : Option Partial → Bytes → List Char
  | none, [] => taken.reverse
  | some _, [] => (replacement :: taken).reverse
  | some p, b :: rest =>
    let n := b.toNat
    if p.low ≤ n ∧ n ≤ p.high then
      let bits := p.bits * 64 + (n - 0x80)
      match p.more with
      | 0 => decodeAfter (Char.ofNat bits :: taken) none rest
      | more + 1 => decodeAfter taken (some ⟨bits, 0x80, 0xBF, more⟩) rest
    else if n < 0x80 then decodeAfter (Char.ofNat n :: replacement :: taken) none rest
    else match lead? n with
      | some l => decodeAfter (replacement :: taken) (some ⟨l.bits, l.low, l.high, l.more⟩) rest
      | none => decodeAfter (replacement :: replacement :: taken) none rest
  | none, b :: rest =>
    let n := b.toNat
    if n < 0x80 then decodeAfter (Char.ofNat n :: taken) none rest
    else match lead? n with
      | some l => decodeAfter taken (some ⟨l.bits, l.low, l.high, l.more⟩) rest
      | none => decodeAfter (replacement :: taken) none rest

/-- The text of the bytes, whatever they are. -/
def decodeLossy (bytes : Bytes) : List Char := decodeAfter [] none bytes

/-- The bytes that may stand before a text to say how it is encoded. -/
def orderMark : Bytes := [0xEF, 0xBB, 0xBF]

/-- The bytes without the mark that may stand before them. -/
def dropOrderMark (bytes : Bytes) : Bytes :=
  if orderMark.isPrefixOf bytes then bytes.drop orderMark.length else bytes

end RecordFilter.Text
