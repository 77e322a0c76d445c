/-!
Finite IEEE-754 binary64 numbers, held as their 64-bit patterns, and rounding of exact ratios to
the nearest of them. A product or quotient of two such numbers is the exact one rounded once, to
the nearest significand and on a tie to the even one, so the arithmetic here is exact natural
number arithmetic followed by `ofRatio?`, and no step of it is hidden from a proof.

A positive finite number is `significand · 2 ^ exponent`, with the significand below `2 ^ 53`
and the exponent between `-1074` and `971`; a normal number has a significand of at least
`2 ^ 52`, a subnormal one the least exponent.
-/

namespace AccessRequest

/-- A finite binary64 number, by its bit pattern: a sign bit, eleven exponent bits and fifty-two
fraction bits. -/
structure Binary64 where
  bits : UInt64
  deriving DecidableEq, Repr

namespace Binary64

/-- Positive zero. -/
def zero : Binary64 := ⟨0⟩

/-- The sign bit is set. -/
def negative (x : Binary64) : Bool := x.bits >>> 63 == 1

/-- The eleven exponent bits, as a number. -/
def biasedExponent (x : Binary64) : Nat := ((x.bits >>> 52) &&& 0x7FF).toNat

/-- The fifty-two fraction bits, as a number. -/
def fraction (x : Binary64) : Nat := (x.bits &&& 0xFFFFFFFFFFFFF).toNat

/-- The significand: the fraction, with the hidden bit of a normal number. -/
def significand (x : Binary64) : Nat :=
  if x.biasedExponent = 0 then x.fraction else x.fraction + Nat.pow 2 52

/-- The exponent of the significand's last place. -/
def exponent (x : Binary64) : Int := (max x.biasedExponent 1 : Nat) - 1075

/-- The magnitude is zero. -/
def isZero (x : Binary64) : Bool := x.significand == 0

/-- The same magnitude with the other sign. -/
def neg (x : Binary64) : Binary64 := ⟨x.bits ^^^ 0x8000000000000000⟩

/-- The number with sign `negative` and magnitude `x`'s. -/
def withSign (negative : Bool) (x : Binary64) : Binary64 :=
  if negative then x.neg else x

/-- The positive number `m · 2 ^ e` for a significand below `2 ^ 53` and an exponent in range:
a significand of at least `2 ^ 52` is normal, a smaller one subnormal. -/
def ofParts (m : Nat) (e : Int) : Binary64 :=
  if m < Nat.pow 2 52 then ⟨UInt64.ofNat m⟩
  else ⟨UInt64.ofNat ((e + 1075).toNat * Nat.pow 2 52 + (m - Nat.pow 2 52))⟩

/-- `⌊a · 2 ^ s / b⌋` and its remainder's relation to half of the divisor, for an integer shift:
the quotient, and whether it rounds up to nearest with ties to even. -/
def scaledQuotient (a b : Nat) (s : Int) : Nat × Bool :=
  let num := a * Nat.pow 2 s.toNat
  let den := b * Nat.pow 2 (-s).toNat
  let q := num / den
  let r := num % den
  (q, 2 * r > den || (2 * r == den && q % 2 == 1))

/-- The exponent of the last place of `p / q` when written with a 53-bit significand, before the
least exponent is imposed: `⌊log₂ (p / q)⌋ - 52`. -/
def placeExponent (p q : Nat) : Int :=
  let e : Int := (Nat.log2 p : Int) - Nat.log2 q - 52
  if (scaledQuotient p q (-e)).1 < Nat.pow 2 52 then e - 1 else e

/-- The nearest binary64 number to `p / q` (with `q > 0`), ties to the even significand; `none`
when the ratio rounds beyond the largest finite number. -/
def ofRatio? (p q : Nat) : Option Binary64 :=
  if p = 0 then some zero
  else
    let e := max (placeExponent p q) (-1074)
    let (m, up) := scaledQuotient p q (-e)
    let m := if up then m + 1 else m
    let (m, e) := if m = Nat.pow 2 53 then (Nat.pow 2 52, e + 1) else (m, e)
    if e > 971 then none else some (ofParts m e)

/-- The exact product of the magnitudes, rounded; `none` on overflow. -/
def mulMagnitude? (x y : Binary64) : Option Binary64 :=
  let e := x.exponent + y.exponent
  ofRatio? (x.significand * y.significand * Nat.pow 2 e.toNat) (Nat.pow 2 (-e).toNat)

/-- The exact quotient of the magnitudes, rounded, for a non-zero divisor. -/
def divMagnitude (x y : Binary64) : Binary64 :=
  let e := x.exponent - y.exponent
  (ofRatio? (x.significand * Nat.pow 2 e.toNat) (y.significand * Nat.pow 2 (-e).toNat)).getD zero

/-- The natural number `n`, rounded. -/
def ofNat (n : Nat) : Binary64 := (ofRatio? n 1).getD zero

/-- `10 ^ k` rounded: the table of powers a decimal reader scales by. -/
def pow10 (k : Nat) : Binary64 := ofNat (Nat.pow 10 k)

theorem zero_significand : zero.significand = 0 := by decide

end Binary64

end AccessRequest
