/-!
UTF-8 byte sequences (RFC 3629): the bytes of characters, and back. Decoding accepts exactly the
well-formed sequences: no overlong form, no surrogate, nothing above U+10FFFF, no stray
continuation byte and no character cut short.
-/

namespace AccessRequest.Text

/-- The bytes of a text, character by character. -/
def utf8Bytes (cs : List Char) : List UInt8 := cs.flatMap String.utf8EncodeChar

/-- A continuation byte, `10xxxxxx`: its six payload bits. -/
def continuation? (b : UInt8) : Option Nat :=
  if 0x80 ≤ b ∧ b ≤ 0xBF then some (b.toNat - 0x80) else none

/-- The characters of a well-formed byte sequence. -/
def decodeUtf8 : List UInt8 → Option (List Char)
  | [] => some []
  | b :: rest =>
    if b < 0x80 then (decodeUtf8 rest).map (Char.ofNat b.toNat :: ·)
    else if 0xC2 ≤ b ∧ b ≤ 0xDF then
      match rest with
      | b1 :: rest => do
        let x1 ← continuation? b1
        let cs ← decodeUtf8 rest
        pure (Char.ofNat ((b.toNat - 0xC0) * 0x40 + x1) :: cs)
      | [] => none
    else if 0xE0 ≤ b ∧ b ≤ 0xEF then
      match rest with
      | b1 :: b2 :: rest => do
        let x1 ← continuation? b1
        let x2 ← continuation? b2
        let n := (b.toNat - 0xE0) * 0x1000 + x1 * 0x40 + x2
        if n < 0x800 ∨ (0xD800 ≤ n ∧ n ≤ 0xDFFF) then none
        else
          let cs ← decodeUtf8 rest
          pure (Char.ofNat n :: cs)
      | _ => none
    else if 0xF0 ≤ b ∧ b ≤ 0xF4 then
      match rest with
      | b1 :: b2 :: b3 :: rest => do
        let x1 ← continuation? b1
        let x2 ← continuation? b2
        let x3 ← continuation? b3
        let n := (b.toNat - 0xF0) * 0x40000 + x1 * 0x1000 + x2 * 0x40 + x3
        if n < 0x10000 ∨ n > 0x10FFFF then none
        else
          let cs ← decodeUtf8 rest
          pure (Char.ofNat n :: cs)
      | _ => none
    else none

end AccessRequest.Text
