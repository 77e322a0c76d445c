import AccessRequest.Text.Utf8

/-!
The UTF-8 decoder reads every encoded text back. One lemma per length of encoding says what the
decoder makes of a first byte in that length's range followed by continuation bytes; the bytes
of a character's encoding carry the bits of its code point, and a character's code point is
neither a surrogate nor written with more bytes than it needs, so the decoder accepts them and
rebuilds the character.
-/

namespace AccessRequest.Text

/-- A continuation byte carries six bits of payload. -/
theorem continuation?_ofNat {x : Nat} (h : x < 64) :
    continuation? (UInt8.ofNat (x + 0x80)) = some x := by
  simp only [continuation?, UInt8.le_iff_toNat_le,
    UInt8.toNat_ofNat_of_lt' (show x + 0x80 < 256 by omega)]
  simp
  omega

theorem decodeUtf8_cons_ascii {b : UInt8} (rest : List UInt8) (hb : b.toNat < 0x80) :
    decodeUtf8 (b :: rest) = (decodeUtf8 rest).map (Char.ofNat b.toNat :: ·) := by
  rw [decodeUtf8.eq_def]
  simp [UInt8.lt_iff_toNat_lt, hb]

theorem decodeUtf8_cons_two {b b1 : UInt8} {x1 : Nat} (rest : List UInt8)
    (hb : 0xC2 ≤ b.toNat ∧ b.toNat ≤ 0xDF) (h1 : continuation? b1 = some x1) :
    decodeUtf8 (b :: b1 :: rest) =
      (decodeUtf8 rest).map (Char.ofNat ((b.toNat - 0xC0) * 0x40 + x1) :: ·) := by
  rw [decodeUtf8.eq_def]
  simp only [UInt8.lt_iff_toNat_lt, UInt8.le_iff_toNat_le, h1]
  rw [if_neg (by simp; omega), if_pos (by simpa using hb)]
  cases decodeUtf8 rest <;> rfl

theorem decodeUtf8_cons_three {b b1 b2 : UInt8} {x1 x2 : Nat} (rest : List UInt8)
    (hb : 0xE0 ≤ b.toNat ∧ b.toNat ≤ 0xEF) (h1 : continuation? b1 = some x1)
    (h2 : continuation? b2 = some x2)
    (hn : ¬ ((b.toNat - 0xE0) * 0x1000 + x1 * 0x40 + x2 < 0x800 ∨
      0xD800 ≤ (b.toNat - 0xE0) * 0x1000 + x1 * 0x40 + x2 ∧
        (b.toNat - 0xE0) * 0x1000 + x1 * 0x40 + x2 ≤ 0xDFFF)) :
    decodeUtf8 (b :: b1 :: b2 :: rest) =
      (decodeUtf8 rest).map (Char.ofNat ((b.toNat - 0xE0) * 0x1000 + x1 * 0x40 + x2) :: ·) := by
  rw [decodeUtf8.eq_def]
  simp only [UInt8.lt_iff_toNat_lt, UInt8.le_iff_toNat_le, h1, h2]
  rw [if_neg (by simp; omega), if_neg (by simp; omega), if_pos (by simpa using hb)]
  -- binds peeled by `rw`: a `simp` here makes the kernel compare the branch condition
  -- by unfolding its multiplications in unary
  rw [Option.bind_eq_bind, Option.bind_some, Option.bind_eq_bind, Option.bind_some, if_neg hn]
  cases decodeUtf8 rest <;> rfl

theorem decodeUtf8_cons_four {b b1 b2 b3 : UInt8} {x1 x2 x3 : Nat} (rest : List UInt8)
    (hb : 0xF0 ≤ b.toNat ∧ b.toNat ≤ 0xF4) (h1 : continuation? b1 = some x1)
    (h2 : continuation? b2 = some x2) (h3 : continuation? b3 = some x3)
    (hn : ¬ ((b.toNat - 0xF0) * 0x40000 + x1 * 0x1000 + x2 * 0x40 + x3 < 0x10000 ∨
      (b.toNat - 0xF0) * 0x40000 + x1 * 0x1000 + x2 * 0x40 + x3 > 0x10FFFF)) :
    decodeUtf8 (b :: b1 :: b2 :: b3 :: rest) =
      (decodeUtf8 rest).map
        (Char.ofNat ((b.toNat - 0xF0) * 0x40000 + x1 * 0x1000 + x2 * 0x40 + x3) :: ·) := by
  rw [decodeUtf8.eq_def]
  simp only [UInt8.lt_iff_toNat_lt, UInt8.le_iff_toNat_le, h1, h2, h3]
  rw [if_neg (by simp; omega), if_neg (by simp; omega), if_neg (by simp; omega),
    if_pos (by simpa using hb)]
  rw [Option.bind_eq_bind, Option.bind_some, Option.bind_eq_bind, Option.bind_some,
    Option.bind_some, if_neg hn]
  cases decodeUtf8 rest <;> rfl

/-- The encoding of one character decodes to that character, whatever follows it. -/
theorem decodeUtf8_utf8EncodeChar_append (c : Char) (rest : List UInt8) :
    decodeUtf8 (String.utf8EncodeChar c ++ rest) = (decodeUtf8 rest).map (c :: ·) := by
  have hvalid : c.val.toNat < 0xD800 ∨ (0xDFFF < c.val.toNat ∧ c.val.toNat < 0x110000) := c.valid
  have hc : Char.ofNat c.val.toNat = c := Char.ofNat_toNat c
  unfold String.utf8EncodeChar
  generalize c.val.toNat = v at hc hvalid
  simp only
  -- one case per encoding length; each time the decoder's arithmetic gives `v` back
  split
  · have hb := UInt8.toNat_ofNat_of_lt' (show v < 256 by omega)
    rw [List.singleton_append, decodeUtf8_cons_ascii _ (by omega), hb, hc]
  split
  · simp only [List.cons_append, List.nil_append]
    have hb := UInt8.toNat_ofNat_of_lt' (show v / 64 % 32 + 192 < 256 by omega)
    rw [decodeUtf8_cons_two _ (by omega) (continuation?_ofNat (by omega)), hb,
      show (v / 64 % 32 + 192 - 0xC0) * 0x40 + v % 64 = v by omega, hc]
  split
  · simp only [List.cons_append, List.nil_append]
    have hb := UInt8.toNat_ofNat_of_lt' (show v / 4096 % 16 + 224 < 256 by omega)
    have hn : (v / 4096 % 16 + 224 - 0xE0) * 0x1000 + v / 64 % 64 * 0x40 + v % 64 = v := by
      omega
    rw [decodeUtf8_cons_three _ (by omega) (continuation?_ofNat (by omega))
      (continuation?_ofNat (by omega)) (by rw [hb, hn]; omega), hb, hn, hc]
  · simp only [List.cons_append, List.nil_append]
    have hb := UInt8.toNat_ofNat_of_lt' (show v / 262144 % 8 + 240 < 256 by omega)
    have hn : (v / 262144 % 8 + 240 - 0xF0) * 0x40000 + v / 4096 % 64 * 0x1000 +
        v / 64 % 64 * 0x40 + v % 64 = v := by
      omega
    rw [decodeUtf8_cons_four _ (by omega) (continuation?_ofNat (by omega))
      (continuation?_ofNat (by omega)) (continuation?_ofNat (by omega)) (by rw [hb, hn]; omega),
      hb, hn, hc]

/-- Decoding the bytes of a text gives the text back. -/
theorem decodeUtf8_utf8Bytes (cs : List Char) : decodeUtf8 (utf8Bytes cs) = some cs := by
  induction cs with
  | nil => rfl
  | cons c cs ih =>
    rw [utf8Bytes, List.flatMap_cons, decodeUtf8_utf8EncodeChar_append, ← utf8Bytes, ih]
    rfl

end AccessRequest.Text
