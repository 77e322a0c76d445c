import AccessRequest.Binary64.Shortest

/-!
The text of a binary64 number: its shortest decimal, laid out positionally while the leading
digit's place is in a window and in exponent form outside it. Zero is `0.0`; a positional whole
number keeps `.0`; an exponent has no leading zeros, and a sign also when it is positive.
-/

namespace AccessRequest

/-- Where positional notation ends, and how an exponent is signed. With `n` the place count
`leadingPlace + 1` of a decimal, positional notation is used for `lowest < n ≤ highest`; a whole
number is followed by `.0`. -/
structure Notation where
  highest : Int
  lowest : Int
  /-- A positive exponent is written with `+`. -/
  plusSign : Bool

/-- Numbers are positional from `0.00001` up to below `10 ^ 16`, and in exponent form beyond,
where a positive exponent has its `+`: `1e+16`, `1e-6`. -/
def Notation.standard : Notation := ⟨16, -5, true⟩

namespace Decimal

/-- The decimal text of an integer, with `-` before a negative one. -/
def intText (i : Int) : String :=
  if i < 0 then "-" ++ Nat.repr (-i).toNat else Nat.repr i.toNat

/-- The digits of `n`, most significant first. -/
def digitChars (n : Nat) : List Char := (Nat.toDigits 10 n)

/-- The text of a positive decimal without trailing zeros, in notation `f`. -/
def layout (f : Notation) (d : Decimal) : String :=
  let ds := digitChars d.digits
  let len : Int := ds.length
  let k := d.exponent
  let n := len + k
  if 0 ≤ k ∧ n ≤ f.highest then
    String.ofList (ds ++ List.replicate k.toNat '0' ++ ['.', '0'])
  else if 0 < n ∧ n ≤ f.highest then
    String.ofList (ds.take n.toNat ++ '.' :: ds.drop n.toNat)
  else if f.lowest < n ∧ n ≤ 0 then
    String.ofList ('0' :: '.' :: List.replicate (-n).toNat '0' ++ ds)
  else
    let mantissa := match ds with
      | [c] => [c]
      | c :: rest => c :: '.' :: rest
      | [] => []
    let sign := if f.plusSign ∧ 0 ≤ n - 1 then "+" else ""
    String.ofList mantissa ++ "e" ++ sign ++ intText (n - 1)

end Decimal

namespace Binary64

/-- The shortest text that reads back as `x`: sign, then the decimal's layout. -/
def toText (x : Binary64) : String :=
  let sign := if x.negative then "-" else ""
  if x.isZero then sign ++ "0.0" else sign ++ x.shortest.layout Notation.standard

end Binary64

end AccessRequest
