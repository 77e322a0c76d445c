import AccessRequest.Url.Percent
import AccessRequest.Proofs.Utf8Decode

/-!
Percent-encoding of a path segment, read back. Every byte of a text's UTF-8 form is written as
itself or as `%` and two uppercase hexadecimal digits, all ASCII, so the decoder meets exactly
the escapes the encoder wrote and recovers the bytes, which decode to the text. The encoded form
of a non-empty text is a non-empty segment with no slash: a slash byte is never unreserved, so
it is always escaped.
-/

namespace AccessRequest.Url

theorem toNat_charOfNat {n : Nat} (h : n < 0x80) : (Char.ofNat n).toNat = n := by
  have hv : n.isValidChar := Or.inl (by omega)
  have hc : Char.ofNat n = Char.ofNatAux n hv := dif_pos hv
  rw [hc]
  rfl

/-- The one byte of an ASCII character. -/
theorem utf8EncodeChar_ofNat_of_lt {n : Nat} (h : n < 0x80) :
    String.utf8EncodeChar (Char.ofNat n) = [UInt8.ofNat n] := by
  have hn : (Char.ofNat n).val.toNat = n := toNat_charOfNat h
  simp [String.utf8EncodeChar, hn, show n ≤ 127 by omega]

theorem percentDecodeBytes_cons_of_ne {b : UInt8} (h : b ≠ 0x25) (rest : List UInt8) :
    percentDecodeBytes (b :: rest) = b :: percentDecodeBytes rest := by
  rcases rest with _ | ⟨x, _ | ⟨y, rest⟩⟩ <;> simp [percentDecodeBytes, h]

theorem percentDecodeBytes_escape {h l : UInt8} {hv lv : Nat} (hh : hexValue? h = some hv)
    (hl : hexValue? l = some lv) (rest : List UInt8) :
    percentDecodeBytes (0x25 :: h :: l :: rest) =
      UInt8.ofNat (hv * 16 + lv) :: percentDecodeBytes rest := by
  simp [percentDecodeBytes, hh, hl]

/-- An uppercase hexadecimal digit is one byte, and reading it gives its value back. -/
theorem utf8EncodeChar_upperHexDigit {d : Nat} (hd : d < 16) :
    ∃ x, String.utf8EncodeChar (upperHexDigit d) = [x] ∧ hexValue? x = some d := by
  unfold upperHexDigit
  split
  · refine ⟨_, utf8EncodeChar_ofNat_of_lt (by omega), ?_⟩
    simp only [hexValue?, UInt8.le_iff_toNat_le,
      UInt8.toNat_ofNat_of_lt' (show 0x30 + d < 256 by omega)]
    rw [if_pos (by simp; omega)]
    simp
  · refine ⟨_, utf8EncodeChar_ofNat_of_lt (by omega), ?_⟩
    simp only [hexValue?, UInt8.le_iff_toNat_le,
      UInt8.toNat_ofNat_of_lt' (show 0x41 + d - 10 < 256 by omega)]
    rw [if_neg (by simp; omega), if_pos (by simp; omega)]
    simp
    omega

/-- A digit reads as a hexadecimal value and a slash does not, so no digit is a slash. -/
theorem upperHexDigit_ne_slash {d : Nat} (hd : d < 16) : upperHexDigit d ≠ '/' := by
  intro h
  obtain ⟨x, hx, hv⟩ := utf8EncodeChar_upperHexDigit hd
  rw [h, show String.utf8EncodeChar '/' = [0x2F] from rfl, List.singleton_inj] at hx
  rw [← hx, show hexValue? 0x2F = none from rfl] at hv
  cases hv

theorem isUnreserved_bounds {b : UInt8} (h : isUnreserved b = true) :
    b.toNat < 0x80 ∧ b ≠ 0x25 ∧ b ≠ 0x2F := by
  simp [isUnreserved, UInt8.le_iff_toNat_le, ← UInt8.toNat_inj] at h ⊢
  omega

theorem encodeByte_ne_nil (b : UInt8) : encodeByte b ≠ [] := by
  unfold encodeByte
  split <;> simp

theorem slash_not_mem_encodeByte (b : UInt8) : '/' ∉ encodeByte b := by
  have hbound := b.toNat_lt
  unfold encodeByte
  split
  · next hb =>
    obtain ⟨hlt, -, hslash⟩ := isUnreserved_bounds hb
    rw [List.mem_singleton]
    intro h
    have hcode := congrArg Char.toNat h
    rw [toNat_charOfNat hlt] at hcode
    exact hslash (UInt8.toNat_inj.1 hcode.symm)
  · simp only [List.mem_cons, List.not_mem_nil, or_false, not_or]
    exact ⟨by decide, (upperHexDigit_ne_slash (by omega)).symm,
      (upperHexDigit_ne_slash (by omega)).symm⟩

/-- The bytes of one encoded byte read back to that byte. -/
theorem percentDecodeBytes_encodeByte (b : UInt8) (rest : List UInt8) :
    percentDecodeBytes (Text.utf8Bytes (encodeByte b) ++ rest) = b :: percentDecodeBytes rest := by
  unfold encodeByte
  split
  · next hb =>
    obtain ⟨hlt, hpct, -⟩ := isUnreserved_bounds hb
    rw [Text.utf8Bytes, List.flatMap_singleton, utf8EncodeChar_ofNat_of_lt hlt, UInt8.ofNat_toNat,
      List.singleton_append, percentDecodeBytes_cons_of_ne hpct]
  · -- an escape: `%`, then the digits of the high and the low half of the byte
    have hbound := b.toNat_lt
    obtain ⟨hi, hhi, hvhi⟩ := utf8EncodeChar_upperHexDigit (d := b.toNat / 16) (by omega)
    obtain ⟨lo, hlo, hvlo⟩ := utf8EncodeChar_upperHexDigit (d := b.toNat % 16) (by omega)
    rw [Text.utf8Bytes, List.flatMap_cons, List.flatMap_cons, List.flatMap_singleton, hhi, hlo,
      show String.utf8EncodeChar '%' = [0x25] from rfl]
    simp only [List.cons_append, List.nil_append]
    rw [percentDecodeBytes_escape hvhi hvlo,
      show b.toNat / 16 * 16 + b.toNat % 16 = b.toNat by omega, UInt8.ofNat_toNat]

theorem percentDecodeBytes_encode (bs : List UInt8) :
    percentDecodeBytes (Text.utf8Bytes (bs.flatMap encodeByte)) = bs := by
  induction bs with
  | nil => rfl
  | cons b bs ih =>
    rw [List.flatMap_cons, Text.utf8Bytes, List.flatMap_append, ← Text.utf8Bytes,
      ← Text.utf8Bytes, percentDecodeBytes_encodeByte, ih]

/-- Decoding an encoded text gives the text back. -/
theorem percentDecode_percentEncode (s : String) : percentDecode (percentEncode s) = some s := by
  rw [percentDecode, percentEncode, String.toList_ofList, percentDecodeBytes_encode,
    Text.decodeUtf8_utf8Bytes, Option.map_some, String.ofList_toList]

theorem slash_not_mem_percentEncode (s : String) : '/' ∉ (percentEncode s).toList := by
  rw [percentEncode, String.toList_ofList, List.mem_flatMap]
  rintro ⟨b, -, hb⟩
  exact slash_not_mem_encodeByte b hb

theorem percentEncode_ne_empty {s : String} (h : s ≠ "") : percentEncode s ≠ "" := by
  intro he
  have hnil : (Text.utf8Bytes s.toList).flatMap encodeByte = [] := by
    have hchars := congrArg String.toList he
    rwa [percentEncode, String.toList_ofList, String.toList_empty] at hchars
  -- the first character has a first byte, and that byte has a non-empty encoding
  cases hs : s.toList with
  | nil => exact h (String.toList_eq_nil_iff.1 hs)
  | cons c cs =>
    obtain ⟨b, bytes, hc⟩ := List.exists_cons_of_ne_nil (String.utf8EncodeChar_ne_nil (c := c))
    apply encodeByte_ne_nil b
    apply List.flatMap_eq_nil_iff.1 hnil b
    simp [Text.utf8Bytes, hs, hc]

end AccessRequest.Url
