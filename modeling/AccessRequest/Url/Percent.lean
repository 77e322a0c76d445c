import AccessRequest.Text.Utf8

/-!
Percent-encoding of URL path segments. Encoding keeps the unreserved bytes `A-Z a-z 0-9 - . _ ~`
and writes every other byte of the text's UTF-8 form as `%` and two uppercase hexadecimal
digits. Decoding turns `%` and two hexadecimal digits of either case into that byte and keeps
every other byte, a `%` without two digits after it included; the decoded bytes must be UTF-8.
-/

namespace AccessRequest.Url

/-- A byte that stands for itself in a path segment. -/
def isUnreserved (b : UInt8) : Bool :=
  (0x41 ≤ b && b ≤ 0x5A) || (0x61 ≤ b && b ≤ 0x7A) || (0x30 ≤ b && b ≤ 0x39) ||
    b == 0x2D || b == 0x2E || b == 0x5F || b == 0x7E

/-- The uppercase hexadecimal digit of a value below 16. -/
def upperHexDigit (n : Nat) : Char :=
  if n < 10 then Char.ofNat (0x30 + n) else Char.ofNat (0x41 + n - 10)

/-- The encoded form of one byte. -/
def encodeByte (b : UInt8) : List Char :=
  if isUnreserved b then [Char.ofNat b.toNat]
  else ['%', upperHexDigit (b.toNat / 16), upperHexDigit (b.toNat % 16)]

/-- The percent-encoded form of a text. -/
def percentEncode (s : String) : String :=
  String.ofList ((Text.utf8Bytes s.toList).flatMap encodeByte)

/-- The value of an ASCII hexadecimal digit byte, either case. -/
def hexValue? (b : UInt8) : Option Nat :=
  if 0x30 ≤ b ∧ b ≤ 0x39 then some (b.toNat - 0x30)
  else if 0x41 ≤ b ∧ b ≤ 0x46 then some (b.toNat - 0x41 + 10)
  else if 0x61 ≤ b ∧ b ≤ 0x66 then some (b.toNat - 0x61 + 10)
  else none

/-- The bytes a percent-encoded byte sequence stands for. -/
def percentDecodeBytes : List UInt8 → List UInt8
  | [] => []
  | 0x25 :: h :: l :: rest =>
    match hexValue? h, hexValue? l with
    | some hv, some lv => UInt8.ofNat (hv * 16 + lv) :: percentDecodeBytes rest
    | _, _ => 0x25 :: percentDecodeBytes (h :: l :: rest)
  | b :: rest => b :: percentDecodeBytes rest

/-- The text a percent-encoded text stands for, if its bytes are UTF-8. -/
def percentDecode (s : String) : Option String :=
  (Text.decodeUtf8 (percentDecodeBytes (Text.utf8Bytes s.toList))).map String.ofList

end AccessRequest.Url
