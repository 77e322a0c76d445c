import AccessRequest.Json.Value
import AccessRequest.Json.Literal.Word

/-!
Number literals. The digits before the point are gathered into a 64-bit significand while it
fits; a whole number that fits is an integer, and any other number is the significand scaled by
a power of ten in binary64 arithmetic:

* once the significand is full, further integer digits each raise the decimal exponent by one
  and further fraction digits are dropped;
* the significand is rounded to binary64 and then multiplied or divided once by the rounded
  power of ten, or, beyond `10 ^ 308`, divided by `10 ^ 308` until the rest of the exponent is
  in the table;
* a result beyond the largest finite number is `number out of range`, and so is a decimal
  exponent above `2 ^ 31 - 1` with a non-zero significand; a very small result is zero.

A negative whole number is an integer from `-1` down to `-2 ^ 63`; `-0` and the negative whole
numbers beyond are binary64.

Skipping a number checks only its form, with faults of its own (`-` at the end of the text is
`invalid number`, not the end of a value).
-/

namespace AccessRequest.Json

/-- The value of a decimal digit character. -/
def digitValue (c : Char) : Nat := c.toNat - '0'.toNat

/-- The largest 64-bit unsigned integer. -/
def maxU64 : Nat := Nat.pow 2 64 - 1

/-- The largest 32-bit signed integer. -/
def maxI32 : Nat := Nat.pow 2 31 - 1

/-- An integer exponent, held to the 32-bit range the way a saturating sum holds it. -/
def clampExponent (e : Int) : Int := max (min e maxI32) (-(Nat.pow 2 31 : Int))

/-- `x / 10 ^ e`: one division when the power is in the table, otherwise division by `10 ^ 308`
first, stopping early at zero. -/
def scaleDown (x : Binary64) (e : Nat) : Binary64 :=
  if e ≤ 308 then x.divMagnitude (Binary64.pow10 e)
  else if x.isZero then x
  else scaleDown (x.divMagnitude (Binary64.pow10 308)) (e - 308)
termination_by e
decreasing_by omega

/-- The binary64 number `significand · 10 ^ exponent` with the given sign; `rest` is what
follows the literal, where an overflow is reported. -/
def fromParts (positive : Bool) (significand : Nat) (exponent : Int) (rest : List Char) :
    Except Fault Number :=
  let x := Binary64.ofNat significand
  let magnitude : Except Fault Binary64 :=
    if 0 ≤ exponent then
      if exponent ≤ 308 then
        match x.mulMagnitude? (Binary64.pow10 exponent.toNat) with
        | some y => .ok y
        | none => .error (Fault.here .numberOutOfRange rest)
      else if x.isZero then .ok x
      else .error (Fault.here .numberOutOfRange rest)
    else .ok (scaleDown x (-exponent).toNat)
  magnitude.map fun y => .float (Binary64.withSign (!positive) y)

/-- Exponent digits after the first, gathered into `value` while it fits 32 bits. The digit
that overflows it is read, and then the number is out of range if its significand is not zero
and the exponent positive, and otherwise zero with the number's sign. -/
def readExponentDigits (positive positiveExponent : Bool) (significand : Nat) (start : Int)
    (value : Nat) : List Char → Except Fault (Number × List Char)
  | c :: rest =>
    if c.isDigit then
      let next := value * 10 + digitValue c
      if next > maxI32 then
        if significand ≠ 0 ∧ positiveExponent then .error (Fault.here .numberOutOfRange rest)
        else .ok (.float (Binary64.withSign (!positive) Binary64.zero), rest.dropWhile Char.isDigit)
      else readExponentDigits positive positiveExponent significand start next rest
    else finish (c :: rest)
  | [] => finish []
where
  /-- The number once the exponent's digits end. -/
  finish (cs : List Char) : Except Fault (Number × List Char) :=
    let e := if positiveExponent then start + value else start - value
    (fromParts positive significand (clampExponent e) cs).map (·, cs)

/-- The sign of an exponent, positive when none is written, and the text after it. -/
def exponentSign : List Char → Bool × List Char
  | '+' :: rest => (true, rest)
  | '-' :: rest => (false, rest)
  | cs => (true, cs)

/-- The exponent part after its `e` or `E`: an optional sign, then at least one digit. -/
def readExponent (positive : Bool) (significand : Nat) (start : Int) (cs : List Char) :
    Except Fault (Number × List Char) :=
  match exponentSign cs with
  | (_, []) => .error (Fault.here .eofWhileParsingValue [])
  | (positiveExponent, c :: rest) =>
    if c.isDigit then
      readExponentDigits positive positiveExponent significand start (digitValue c) rest
    else .error (Fault.ahead .invalidNumber (c :: rest))

/-- Fraction digits once the significand is full: they are dropped. -/
def readAfterOverflow (positive : Bool) (significand : Nat) (exponent : Int) (cs : List Char) :
    Except Fault (Number × List Char) :=
  match cs.dropWhile Char.isDigit with
  | c :: after =>
    if c = 'e' ∨ c = 'E' then readExponent positive significand exponent after
    else (fromParts positive significand exponent (c :: after)).map (·, c :: after)
  | [] => (fromParts positive significand exponent []).map (·, [])

/-- The fraction digits after the point, gathered while the significand fits. -/
def readFraction (positive : Bool) (significand : Nat) (exponent : Int) (count : Nat) :
    List Char → Except Fault (Number × List Char)
  | c :: rest =>
    if c.isDigit then
      let next := significand * 10 + digitValue c
      if next > maxU64 then readAfterOverflow positive significand (exponent - count) (c :: rest)
      else readFraction positive next exponent (count + 1) rest
    else if count = 0 then .error (Fault.ahead .invalidNumber (c :: rest))
    else if c = 'e' ∨ c = 'E' then readExponent positive significand (exponent - count) rest
    else (fromParts positive significand (exponent - count) (c :: rest)).map (·, c :: rest)
  | [] =>
    if count = 0 then .error (Fault.ahead .eofWhileParsingValue [])
    else (fromParts positive significand (exponent - count) []).map (·, [])

/-- What follows the integer digits: a fraction, an exponent, or the end of an integer. -/
def readNumberTail (positive : Bool) (significand : Nat) (cs : List Char) :
    Except Fault (Number × List Char) :=
  match cs with
  | '.' :: rest => readFraction positive significand 0 0 rest
  | c :: rest =>
    if c = 'e' ∨ c = 'E' then readExponent positive significand 0 rest
    else .ok (wholeNumber, cs)
  | [] => .ok (wholeNumber, cs)
where
  /-- A whole number that fits: unsigned, or negative down to `-2 ^ 63`. -/
  wholeNumber : Number :=
    if positive then .nat (UInt64.ofNat significand)
    else if 0 < significand ∧ significand ≤ Nat.pow 2 63 then
      .neg (Int64.ofInt (-(significand : Int)))
    else .float (Binary64.ofNat significand).neg

/-- Integer digits after the significand is full: each one raises the exponent. -/
def readLongInteger (positive : Bool) (significand : Nat) (cs : List Char) :
    Except Fault (Number × List Char) :=
  let exponent : Int := (cs.takeWhile Char.isDigit).length
  match cs.dropWhile Char.isDigit with
  | '.' :: after => readFraction positive significand exponent 0 after
  | c :: after =>
    if c = 'e' ∨ c = 'E' then readExponent positive significand exponent after
    else (fromParts positive significand exponent (c :: after)).map (·, c :: after)
  | [] => (fromParts positive significand exponent []).map (·, [])

/-- Integer digits after the first, gathered while the significand fits. -/
def readSignificand (positive : Bool) (significand : Nat) : List Char →
    Except Fault (Number × List Char)
  | c :: rest =>
    if c.isDigit then
      let next := significand * 10 + digitValue c
      if next > maxU64 then readLongInteger positive significand (c :: rest)
      else readSignificand positive next rest
    else readNumberTail positive significand (c :: rest)
  | [] => readNumberTail positive significand []

/-- A number literal after its sign: a single `0` or a digit from `1` to `9` and more digits,
then an optional fraction and exponent. -/
def readNumber (positive : Bool) : List Char → Except Fault (Number × List Char)
  | [] => .error (Fault.here .eofWhileParsingValue [])
  | '0' :: rest =>
    match rest with
    | d :: _ => if d.isDigit then .error (Fault.ahead .invalidNumber rest)
      else readNumberTail positive 0 rest
    | [] => readNumberTail positive 0 rest
  | c :: rest =>
    if c.isDigit then readSignificand positive (digitValue c) rest
    else .error (Fault.ahead .invalidNumber (c :: rest))

/-- An exponent's form after its `e`: sign, then at least one digit. -/
def skipExponent (cs : List Char) : Except Fault (List Char) :=
  match (exponentSign cs).2 with
  | c :: rest => if c.isDigit then .ok (rest.dropWhile Char.isDigit)
    else .error (Fault.ahead .invalidNumber (c :: rest))
  | [] => .error (Fault.here .invalidNumber [])

/-- What follows a skipped number's integer digits. -/
def skipNumberTail (cs : List Char) : Except Fault (List Char) :=
  match cs with
  | '.' :: d :: rest =>
    if d.isDigit then
      match rest.dropWhile Char.isDigit with
      | c :: after => if c = 'e' ∨ c = 'E' then skipExponent after else .ok (c :: after)
      | [] => .ok []
    else .error (Fault.ahead .invalidNumber (d :: rest))
  | ['.'] => .error (Fault.ahead .invalidNumber [])
  | c :: rest => if c = 'e' ∨ c = 'E' then skipExponent rest else .ok cs
  | [] => .ok cs

/-- A number's form after its sign, without its value. -/
def skipNumber (cs : List Char) : Except Fault (List Char) :=
  match cs with
  | '0' :: rest =>
    match rest with
    | d :: _ => if d.isDigit then .error (Fault.ahead .invalidNumber rest) else skipNumberTail rest
    | [] => skipNumberTail rest
  | c :: rest =>
    if c.isDigit then skipNumberTail (rest.dropWhile Char.isDigit)
    else .error (Fault.ahead .invalidNumber (c :: rest))
  | [] => .error (Fault.here .invalidNumber [])

/-! Each reader returns a suffix of its text: the rest is never longer, and a number that was
read took at least one character. -/

theorem length_dropWhile_le (p : Char → Bool) (cs : List Char) :
    (cs.dropWhile p).length ≤ cs.length :=
  (List.dropWhile_suffix p).length_le

theorem eq_of_map_pair_eq_ok {x : Except Fault Number} {cs r : List Char} {n : Number}
    (h : x.map (·, cs) = .ok (n, r)) : r = cs := by
  cases x <;> simp_all [Except.map]

theorem exponentSign_length_le (cs : List Char) : (exponentSign cs).2.length ≤ cs.length := by
  unfold exponentSign
  split <;> simp

theorem readExponentDigits_length_le {positive pe : Bool} {significand : Nat} {start : Int}
    {value : Nat} {cs r : List Char} {n : Number}
    (h : readExponentDigits positive pe significand start value cs = .ok (n, r)) :
    r.length ≤ cs.length := by
  induction cs generalizing value with
  | nil =>
    simp only [readExponentDigits, readExponentDigits.finish] at h
    simp [eq_of_map_pair_eq_ok h]
  | cons c rest ih =>
    simp only [readExponentDigits] at h
    split at h
    · split at h
      · split at h
        · simp at h
        · simp only [Except.ok.injEq, Prod.mk.injEq] at h
          rw [← h.2]
          have := length_dropWhile_le Char.isDigit rest
          simp only [List.length_cons]
          omega
      · have := ih h
        simp only [List.length_cons]
        omega
    · simp only [readExponentDigits.finish] at h
      simp [eq_of_map_pair_eq_ok h]

theorem readExponent_length_le {positive : Bool} {significand : Nat} {start : Int}
    {cs r : List Char} {n : Number}
    (h : readExponent positive significand start cs = .ok (n, r)) : r.length ≤ cs.length := by
  have hs := exponentSign_length_le cs
  unfold readExponent at h
  split at h
  · simp at h
  · rename_i heq
    rw [heq] at hs
    split at h
    · have := readExponentDigits_length_le h
      simp only [List.length_cons] at hs
      omega
    · simp at h

theorem readAfterOverflow_length_le {positive : Bool} {significand : Nat} {exponent : Int}
    {cs r : List Char} {n : Number}
    (h : readAfterOverflow positive significand exponent cs = .ok (n, r)) :
    r.length ≤ cs.length := by
  have hd := length_dropWhile_le Char.isDigit cs
  unfold readAfterOverflow at h
  split at h
  · rename_i heq
    split at h
    · have := readExponent_length_le h
      rw [heq] at hd
      simp only [List.length_cons] at hd
      omega
    · rw [eq_of_map_pair_eq_ok h, ← heq]; exact hd
  · rw [eq_of_map_pair_eq_ok h]; exact Nat.zero_le _

theorem readFraction_length_le {positive : Bool} {significand : Nat} {exponent : Int}
    {count : Nat} {cs r : List Char} {n : Number}
    (h : readFraction positive significand exponent count cs = .ok (n, r)) :
    r.length ≤ cs.length := by
  induction cs generalizing significand count with
  | nil =>
    simp only [readFraction] at h
    split at h
    · simp at h
    · simp [eq_of_map_pair_eq_ok h]
  | cons c rest ih =>
    simp only [readFraction] at h
    split at h
    · split at h
      · exact readAfterOverflow_length_le h
      · have := ih h
        simp only [List.length_cons]
        omega
    · split at h
      · simp at h
      · split at h
        · have := readExponent_length_le h
          simp only [List.length_cons]
          omega
        · simp [eq_of_map_pair_eq_ok h]

theorem readNumberTail_length_le {positive : Bool} {significand : Nat} {cs r : List Char}
    {n : Number} (h : readNumberTail positive significand cs = .ok (n, r)) :
    r.length ≤ cs.length := by
  unfold readNumberTail at h
  split at h
  · have := readFraction_length_le h
    simp only [List.length_cons]
    omega
  · split at h
    · have := readExponent_length_le h
      simp only [List.length_cons]
      omega
    · simp only [Except.ok.injEq, Prod.mk.injEq] at h
      obtain ⟨_, rfl⟩ := h
      exact Nat.le_refl _
  · simp only [Except.ok.injEq, Prod.mk.injEq] at h
    obtain ⟨_, rfl⟩ := h
    exact Nat.le_refl _

theorem readLongInteger_length_le {positive : Bool} {significand : Nat} {cs r : List Char}
    {n : Number} (h : readLongInteger positive significand cs = .ok (n, r)) :
    r.length ≤ cs.length := by
  have hd := length_dropWhile_le Char.isDigit cs
  unfold readLongInteger at h
  split at h
  · rename_i heq
    have := readFraction_length_le h
    rw [heq] at hd
    simp only [List.length_cons] at hd
    omega
  · rename_i heq
    split at h
    · have := readExponent_length_le h
      rw [heq] at hd
      simp only [List.length_cons] at hd
      omega
    · rw [eq_of_map_pair_eq_ok h, ← heq]; exact hd
  · rw [eq_of_map_pair_eq_ok h]; exact Nat.zero_le _

theorem readSignificand_length_le {positive : Bool} {significand : Nat} {cs r : List Char}
    {n : Number} (h : readSignificand positive significand cs = .ok (n, r)) :
    r.length ≤ cs.length := by
  induction cs generalizing significand with
  | nil => exact readNumberTail_length_le h
  | cons c rest ih =>
    simp only [readSignificand] at h
    split at h
    · split at h
      · exact readLongInteger_length_le h
      · have := ih h
        simp only [List.length_cons]
        omega
    · exact readNumberTail_length_le h

/-- A number that was read took at least its first character. -/
theorem readNumber_length_lt {positive : Bool} {cs r : List Char} {n : Number}
    (h : readNumber positive cs = .ok (n, r)) : r.length < cs.length := by
  unfold readNumber at h
  split at h
  · simp at h
  · split at h
    · split at h
      · simp at h
      · have := readNumberTail_length_le h
        simp only [List.length_cons] at this ⊢
        omega
    · have := readNumberTail_length_le h
      simp only [List.length_cons, List.length_nil] at this ⊢
      omega
  · split at h
    · have := readSignificand_length_le h
      simp only [List.length_cons]
      omega
    · simp at h

theorem skipExponent_length_le {cs r : List Char} (h : skipExponent cs = .ok r) :
    r.length ≤ cs.length := by
  have hs := exponentSign_length_le cs
  unfold skipExponent at h
  split at h
  · rename_i heq
    split at h
    · simp only [Except.ok.injEq] at h
      rw [← h]
      have := length_dropWhile_le Char.isDigit ‹List Char›
      rw [heq] at hs
      simp only [List.length_cons] at hs
      omega
    · simp at h
  · simp at h

theorem skipNumberTail_length_le {cs r : List Char} (h : skipNumberTail cs = .ok r) :
    r.length ≤ cs.length := by
  unfold skipNumberTail at h
  split at h
  · rename_i rest
    have hd := length_dropWhile_le Char.isDigit rest
    split at h
    · split at h
      · rename_i heq
        rw [heq] at hd
        split at h
        · have := skipExponent_length_le h
          simp only [List.length_cons] at hd ⊢
          omega
        · simp only [Except.ok.injEq] at h
          rw [← h]
          simp only [List.length_cons] at hd ⊢
          omega
      · simp only [Except.ok.injEq] at h
        rw [← h]
        exact Nat.zero_le _
    · simp at h
  · simp at h
  · split at h
    · have := skipExponent_length_le h
      simp only [List.length_cons]
      omega
    · simp only [Except.ok.injEq] at h
      subst h
      exact Nat.le_refl _
  · simp only [Except.ok.injEq] at h
    subst h
    exact Nat.le_refl _

theorem skipNumber_length_lt {cs r : List Char} (h : skipNumber cs = .ok r) :
    r.length < cs.length := by
  unfold skipNumber at h
  split at h
  · split at h
    · split at h
      · simp at h
      · have := skipNumberTail_length_le h
        simp only [List.length_cons] at this ⊢
        omega
    · have := skipNumberTail_length_le h
      simp only [List.length_cons, List.length_nil] at this ⊢
      omega
  · split at h
    · have := skipNumberTail_length_le h
      have := length_dropWhile_le Char.isDigit ‹List Char›
      simp only [List.length_cons]
      omega
    · simp at h
  · simp at h

end AccessRequest.Json
