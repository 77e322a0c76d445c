import AccessRequest.Binary64.Basic

/-!
The shortest decimal that reads back as a given binary64 number. The reals that round to a
positive number `m · 2 ^ e` form an interval around it, closed when `m` is even; for one, two,
and up to seventeen significant digits the two neighbours of the number on that decimal grid are
tested against the interval in exact natural-number arithmetic. The first grid with a neighbour
inside wins; of two neighbours inside, the nearer one, and on a tie the even one.
-/

namespace AccessRequest

/-- A decimal `digits · 10 ^ exponent`. -/
structure Decimal where
  digits : Nat
  exponent : Int
  deriving DecidableEq, Repr

namespace Decimal

/-- The number of decimal digits of `n`, one for zero. -/
def digitCount (n : Nat) : Nat :=
  if n < 10 then 1 else digitCount (n / 10) + 1
termination_by n
decreasing_by omega

/-- The same decimal with no trailing zero digit (zero stays zero). -/
def trim (d : Decimal) : Decimal :=
  if d.digits ≠ 0 ∧ d.digits % 10 = 0 then trim ⟨d.digits / 10, d.exponent + 1⟩ else d
termination_by d.digits
decreasing_by omega

/-- The place of the leading digit of `digits · 10 ^ exponent`: the leading digit is worth
`10 ^ leadingPlace`. -/
def leadingPlace (d : Decimal) : Int := d.exponent + digitCount d.digits - 1

end Decimal

namespace Binary64

/-- `a · 10 ^ t` against `b`, for an integer power. -/
def comparePow10 (a : Nat) (t : Int) (b : Nat) : Ordering :=
  if 0 ≤ t then compare (a * Nat.pow 10 t.toNat) b else compare a (b * Nat.pow 10 (-t).toNat)

/-- A positive number and its rounding interval as numerators over one denominator:
`(center, low, high, denominator, closed)`. The low end lies half a place below, or a quarter
of a place where the significand is the least of a binade above the first; the interval is
closed when the significand is even. -/
def roundingInterval (x : Binary64) : Nat × Nat × Nat × Nat × Bool :=
  let m := x.significand
  let e := x.exponent
  let scale := Nat.pow 2 (e - 2).toNat
  let den := Nat.pow 2 (2 - e).toNat
  let lowGap := if x.fraction = 0 ∧ x.biasedExponent > 1 then 1 else 2
  (4 * m * scale, (4 * m - lowGap) * scale, (4 * m + 2) * scale, den, m % 2 == 0)

/-- The place of the leading decimal digit of a positive number: `⌊log₁₀ x⌋`. -/
def leadingPlace (x : Binary64) : Int :=
  let (center, _, _, den, _) := x.roundingInterval
  -- 10 ^ 340 lifts the least subnormal above 1, so the integer part has all leading digits
  (Decimal.digitCount (center * Nat.pow 10 340 / den) : Int) - 1 - 340

/-- The candidate with `digits` significant digits for a positive number, if one of its two
neighbours on that grid reads back. -/
def candidate? (x : Binary64) (digits : Nat) : Option Decimal :=
  let (center, low, high, den, closed) := x.roundingInterval
  let t : Int := x.leadingPlace - digits + 1
  -- the lower neighbour `d · 10 ^ t ≤ x` and the upper one `(d + 1) · 10 ^ t`
  let d := if 0 ≤ t then center / (den * Nat.pow 10 t.toNat)
    else center * Nat.pow 10 (-t).toNat / den
  let lowIn := match comparePow10 (d * den) t low with
    | .gt => true
    | .eq => closed
    | .lt => false
  let highIn := match comparePow10 ((d + 1) * den) t high with
    | .lt => true
    | .eq => closed
    | .gt => false
  if lowIn && highIn then
    -- both read back: the nearer, by `2x` against `(2d + 1) · 10 ^ t`
    match comparePow10 ((2 * d + 1) * den) t (2 * center) with
    | .gt => some ⟨d, t⟩
    | .lt => some ⟨d + 1, t⟩
    | .eq => some (if d % 2 = 0 then ⟨d, t⟩ else ⟨d + 1, t⟩)
  else if lowIn then some ⟨d, t⟩
  else if highIn then some ⟨d + 1, t⟩
  else none

/-- The first candidate with `digits`, `digits + 1`, … significant digits, seventeen digits at
most; seventeen always read back. -/
def shortestFrom (x : Binary64) (digits : Nat) (room : Nat) : Decimal :=
  match room with
  | 0 => ⟨0, 0⟩
  | room + 1 =>
    match x.candidate? digits with
    | some d => d
    | none => x.shortestFrom (digits + 1) room

/-- The shortest decimal that reads back as the magnitude of `x`, without trailing zeros;
zero for zero. -/
def shortest (x : Binary64) : Decimal :=
  if x.isZero then ⟨0, 0⟩ else (x.shortestFrom 1 17).trim

end Binary64

end AccessRequest
