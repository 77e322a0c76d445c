import AccessRequest.Proofs.Json.NumberDigits
import AccessRequest.Proofs.Binary64.Rounding

/-!
Which numbers the reader accepts, by their value. The reader rounds the significand it holds and
the power of ten to binary64, multiplies them, and refuses the number when the product rounds
beyond the largest finite binary64 number. Its two roundings and the significand's truncation
move the value by less than `2 ^ -50` of it, so a number more than that below the overflow
threshold `2 ^ 1024 - 2 ^ 970` is read and one more than that above it is refused as out of range
(`readNumber_range`, and `readNumber_unsigned_range` for every number of the grammar); between
the two the answer depends on how the roundings fall. An exponent past 32 bits is no exception:
it makes the number out of range or zero, and its value is then far beyond the threshold or far
below it.
-/

namespace AccessRequest.Json

open Binary64 (overflowThreshold overflowThreshold_pos)

/-! ### The overflow threshold -/

theorem threshold_lt_ten_pow : overflowThreshold < 10 ^ 309 := by
  have hbound : (2 : ℕ) ^ 1024 < 10 ^ 309 := by decide +kernel
  have hq : (2 : ℚ) ^ 1024 < 10 ^ 309 := by exact_mod_cast hbound
  calc overflowThreshold < 2 ^ 1024 := by
        rw [overflowThreshold]
        exact sub_lt_self _ (by positivity)
    _ < 10 ^ 309 := hq

theorem two_pow_lt_threshold : (2 : ℚ) ^ 65 < overflowThreshold := by
  have hbound : (2 : ℕ) ^ 65 + 2 ^ 970 < 2 ^ 1024 := by decide +kernel
  have hq : (2 : ℚ) ^ 65 + 2 ^ 970 < 2 ^ 1024 := by exact_mod_cast hbound
  rw [overflowThreshold, lt_sub_iff_add_lt]
  exact hq

theorem cast_lt_of_le_maxU64 {s : ℕ} (hs : s ≤ maxU64) : (s : ℚ) < 2 ^ 64 := by
  have hs' : s < 2 ^ 64 := by
    unfold maxU64 at hs
    rw [show Nat.pow 2 64 = 2 ^ 64 from rfl] at hs
    omega
  exact_mod_cast hs'

namespace Approx

/-- A non-zero significand stands for a value the threshold's margin below it only with an
exponent of at most `308`. -/
theorem exponent_le {v : ℚ} {s : ℕ} {e : ℤ} (h : Approx v s e) (hs : 0 < s)
    (hv : v ≤ overflowThreshold * (1 - 1 / 2 ^ 50)) : e ≤ 308 := by
  by_contra hgt
  have hC : (s : ℚ) * 10 ^ e ≤ overflowThreshold * (1 - 1 / 2 ^ 50) * (1 + 1 / 10 ^ 18) :=
    le_trans h.bounds.1 (mul_le_mul_of_nonneg_right hv (by norm_num))
  have h309 : (10 : ℚ) ^ (309 : ℤ) ≤ s * 10 ^ e :=
    calc (10 : ℚ) ^ (309 : ℤ) ≤ 10 ^ e := zpow_le_zpow_right₀ (by norm_num) (by omega)
      _ ≤ s * 10 ^ e := le_mul_of_one_le_left (by positivity) (by exact_mod_cast hs)
  have hbelow : overflowThreshold * (1 - 1 / 2 ^ 50) * (1 + 1 / 10 ^ 18) < overflowThreshold := by
    rw [mul_assoc]
    exact mul_lt_of_lt_one_right overflowThreshold_pos (by norm_num)
  have hlt : (10 : ℚ) ^ 309 < 10 ^ 309 :=
    calc (10 : ℚ) ^ 309 = 10 ^ (309 : ℤ) := (zpow_ofNat _ _).symm
      _ ≤ s * 10 ^ e := h309
      _ ≤ _ := hC
      _ < overflowThreshold := hbelow
      _ < 10 ^ 309 := threshold_lt_ten_pow
  exact lt_irrefl _ hlt

/-- A significand of 64 bits stands for a value the threshold's margin above it only when it is
not zero and its exponent is not negative. -/
theorem pos_of_ge {v : ℚ} {s : ℕ} {e : ℤ} (h : Approx v s e) (hs : s ≤ maxU64)
    (hv : overflowThreshold * (1 + 1 / 2 ^ 50) ≤ v) : 0 < s ∧ 0 ≤ e := by
  have hC : overflowThreshold * (1 + 1 / 2 ^ 50) * (1 - 1 / 10 ^ 18) ≤ s * 10 ^ e :=
    le_trans (mul_le_mul_of_nonneg_right hv (by norm_num)) h.bounds.2
  have hs64 := cast_lt_of_le_maxU64 hs
  have hsmall := two_pow_lt_threshold
  -- the significand's value is far above any significand of 64 bits
  have hbig : (2 : ℚ) ^ 64 < s * 10 ^ e := by
    have hmargin : overflowThreshold ≤ overflowThreshold * (1 + 1 / 2 ^ 50) * (1 - 1 / 10 ^ 18) :=
      calc overflowThreshold = overflowThreshold * 1 := (mul_one _).symm
        _ ≤ overflowThreshold * ((1 + 1 / 2 ^ 50) * (1 - 1 / 10 ^ 18)) :=
            mul_le_mul_of_nonneg_left (by norm_num) overflowThreshold_pos.le
        _ = _ := by ring
    linarith
  constructor
  · rcases Nat.eq_zero_or_pos s with rfl | hpos
    · rw [Nat.cast_zero, zero_mul] at hbig
      exact absurd hbig (not_lt.2 (by positivity))
    · exact hpos
  · by_contra hneg
    have hle : (s : ℚ) * 10 ^ e ≤ s :=
      mul_le_of_le_one_right (Nat.cast_nonneg _) (zpow_le_one_of_nonpos₀ (by norm_num) (by omega))
    linarith

end Approx

/-! ### Scaling the significand -/

theorem clampExponent_of_le {e : ℤ} (h₁ : -2147483648 ≤ e) (h₂ : e ≤ 2147483647) :
    clampExponent e = e := by
  unfold clampExponent maxI32
  rw [show Nat.pow 2 31 = 2147483648 from rfl]
  omega

theorem clampExponent_neg {e : ℤ} (h : e < 0) : clampExponent e < 0 := by
  unfold clampExponent maxI32
  rw [show Nat.pow 2 31 = 2147483648 from rfl]
  omega

theorem clampExponent_gt {e : ℤ} (h : 308 < e) : 308 < clampExponent e := by
  unfold clampExponent maxI32
  rw [show Nat.pow 2 31 = 2147483648 from rfl]
  omega

section Scale

variable {positive : Bool}

theorem fromParts_zero (e : ℤ) (r : List Char) : ∃ n, fromParts positive 0 e r = .ok n := by
  have hzero : Binary64.ofNat 0 = Binary64.zero := rfl
  have hsome : Binary64.zero.mulMagnitude? (Binary64.pow10 e.toNat) ≠ none := by
    rw [Ne, Binary64.mulMagnitude?_eq_none_iff, Binary64.magnitude, Binary64.zero_significand,
      Nat.cast_zero, zero_mul, zero_mul, not_le]
    exact overflowThreshold_pos
  obtain ⟨y, hy⟩ := Option.ne_none_iff_exists'.1 hsome
  unfold fromParts
  dsimp only
  rw [hzero]
  split_ifs
  · rw [hy]
    exact ⟨_, rfl⟩
  · exact ⟨_, rfl⟩
  · exact absurd rfl ‹¬Binary64.zero.isZero = true›
  · exact ⟨_, rfl⟩

theorem fromParts_of_neg {s : ℕ} {e : ℤ} (r : List Char) (he : e < 0) :
    ∃ n, fromParts positive s e r = .ok n := by
  unfold fromParts
  dsimp only
  rw [if_neg (by omega)]
  exact ⟨_, rfl⟩

/-- The bounds of `Binary64.ofNat_mul_pow10_bounds` at an integer exponent from `0` to `308`. -/
theorem magnitude_product_bounds {s : ℕ} {e : ℤ} (hs : 0 < s) (hsM : (s : ℚ) < overflowThreshold)
    (he : 0 ≤ e) (he' : e ≤ 308) :
    s * 10 ^ e * (1 - 1 / 2 ^ 52) ^ 2 ≤
        (Binary64.ofNat s).magnitude * (Binary64.pow10 e.toNat).magnitude ∧
      (Binary64.ofNat s).magnitude * (Binary64.pow10 e.toNat).magnitude ≤
        s * 10 ^ e * (1 + 1 / 2 ^ 52) ^ 2 := by
  have hpow : (10 : ℚ) ^ e.toNat = 10 ^ e := by rw [← zpow_natCast, Int.toNat_of_nonneg he]
  rw [← hpow]
  exact Binary64.ofNat_mul_pow10_bounds hs hsM (by omega)

/-- A product whose exact value stays below the threshold by the two roundings' margin is a
number. -/
theorem fromParts_of_lt {s : ℕ} {e : ℤ} (r : List Char) (hs : 0 < s) (he : 0 ≤ e)
    (he' : e ≤ 308) (hlt : (s : ℚ) * 10 ^ e * (1 + 1 / 2 ^ 52) ^ 2 < overflowThreshold) :
    ∃ n, fromParts positive s e r = .ok n := by
  have hsM : (s : ℚ) < overflowThreshold := by
    have hsq : (1 : ℚ) ≤ (1 + 1 / 2 ^ 52) ^ 2 := one_le_pow₀ (by norm_num)
    have h10 : (1 : ℚ) ≤ 10 ^ e := one_le_zpow₀ (by norm_num) he
    calc (s : ℚ) = s * 1 * 1 := by ring
      _ ≤ s * 10 ^ e * (1 + 1 / 2 ^ 52) ^ 2 := by gcongr
      _ < overflowThreshold := hlt
  have hsome : (Binary64.ofNat s).mulMagnitude? (Binary64.pow10 e.toNat) ≠ none := by
    rw [Ne, Binary64.mulMagnitude?_eq_none_iff, not_le]
    exact lt_of_le_of_lt (magnitude_product_bounds hs hsM he he').2 hlt
  obtain ⟨y, hy⟩ := Option.ne_none_iff_exists'.1 hsome
  unfold fromParts
  dsimp only
  rw [if_pos he, if_pos he', hy]
  exact ⟨_, rfl⟩

/-- A product whose exact value reaches the threshold by the two roundings' margin, or an exponent
beyond the table, is out of range. -/
theorem fromParts_of_le {s : ℕ} {e : ℤ} (r : List Char) (hs : 0 < s)
    (hsM : (s : ℚ) < overflowThreshold) (he : 0 ≤ e)
    (h : 308 < e ∨ overflowThreshold ≤ (s : ℚ) * 10 ^ e * (1 - 1 / 2 ^ 52) ^ 2) :
    fromParts positive s e r = .error (Fault.here .numberOutOfRange r) := by
  unfold fromParts
  dsimp only
  rw [if_pos he]
  by_cases he' : e ≤ 308
  · have hnone : (Binary64.ofNat s).mulMagnitude? (Binary64.pow10 e.toNat) = none := by
      rw [Binary64.mulMagnitude?_eq_none_iff]
      exact le_trans (h.resolve_left (by omega)) (magnitude_product_bounds hs hsM he he').1
    rw [if_pos he', hnone]
    rfl
  · rw [if_neg he', Binary64.isZero_eq_false (Binary64.ofNat_normal hs hsM).1]
    rfl

/-- The reader's last step accepts a significand that stands for a value more than `2 ^ -50` of
the threshold below it. -/
theorem fromParts_clamp_ok {v : ℚ} {s : ℕ} {e : ℤ} (r : List Char) (happrox : Approx v s e)
    (hv : v ≤ overflowThreshold * (1 - 1 / 2 ^ 50)) :
    ∃ n, fromParts positive s (clampExponent e) r = .ok n := by
  rcases Nat.eq_zero_or_pos s with rfl | hs
  · exact fromParts_zero _ r
  rcases lt_or_ge e 0 with he | he
  · exact fromParts_of_neg r (clampExponent_neg he)
  have he' := happrox.exponent_le hs hv
  rw [clampExponent_of_le (by omega) (by omega)]
  apply fromParts_of_lt r hs he he'
  calc (s : ℚ) * 10 ^ e * (1 + 1 / 2 ^ 52) ^ 2 ≤
        overflowThreshold * (1 - 1 / 2 ^ 50) * (1 + 1 / 10 ^ 18) * (1 + 1 / 2 ^ 52) ^ 2 :=
        mul_le_mul_of_nonneg_right
          (le_trans happrox.bounds.1 (mul_le_mul_of_nonneg_right hv (by norm_num))) (by positivity)
    _ = overflowThreshold * ((1 - 1 / 2 ^ 50) * (1 + 1 / 10 ^ 18) * (1 + 1 / 2 ^ 52) ^ 2) := by
        ring
    _ < overflowThreshold := mul_lt_of_lt_one_right overflowThreshold_pos (by norm_num)

/-- The reader's last step refuses a significand that stands for a value more than `2 ^ -50` of
the threshold above it. -/
theorem fromParts_clamp_error {v : ℚ} {s : ℕ} {e : ℤ} (r : List Char) (happrox : Approx v s e)
    (hs : s ≤ maxU64) (hv : overflowThreshold * (1 + 1 / 2 ^ 50) ≤ v) :
    fromParts positive s (clampExponent e) r = .error (Fault.here .numberOutOfRange r) := by
  obtain ⟨hspos, he⟩ := happrox.pos_of_ge hs hv
  have hsM : (s : ℚ) < overflowThreshold :=
    lt_trans (cast_lt_of_le_maxU64 hs) (lt_trans (by norm_num) two_pow_lt_threshold)
  rcases le_or_gt e 308 with he' | he'
  · rw [clampExponent_of_le (by omega) (by omega)]
    apply fromParts_of_le r hspos hsM he (.inr ?_)
    calc overflowThreshold = overflowThreshold * 1 := (mul_one _).symm
      _ ≤ overflowThreshold * ((1 + 1 / 2 ^ 50) * (1 - 1 / 10 ^ 18) * (1 - 1 / 2 ^ 52) ^ 2) :=
          mul_le_mul_of_nonneg_left (by norm_num) overflowThreshold_pos.le
      _ = overflowThreshold * (1 + 1 / 2 ^ 50) * (1 - 1 / 10 ^ 18) * (1 - 1 / 2 ^ 52) ^ 2 := by
          ring
      _ ≤ s * 10 ^ e * (1 - 1 / 2 ^ 52) ^ 2 :=
          mul_le_mul_of_nonneg_right
            (le_trans (mul_le_mul_of_nonneg_right hv (by norm_num)) happrox.bounds.2)
            (by positivity)
  · exact fromParts_of_le r hspos hsM (by have := clampExponent_gt he'; omega)
      (.inl (clampExponent_gt he'))

/-- What the reader owes a number of value `v` that ends where `r` begins: a number when `v` is
more than `2 ^ -50` of the overflow threshold below it, `number out of range` when it is that
much above it. -/
structure Verdict (v : ℚ) (r : List Char) (read : Except Fault (Number × List Char)) : Prop where
  accepts : v ≤ overflowThreshold * (1 - 1 / 2 ^ 50) → ∃ n, read = .ok (n, r)
  refuses : overflowThreshold * (1 + 1 / 2 ^ 50) ≤ v →
    ∃ rest, read = .error (Fault.here .numberOutOfRange rest)

theorem verdict_fromParts {v : ℚ} {s : ℕ} {e : ℤ} (r : List Char) (happrox : Approx v s e)
    (hs : s ≤ maxU64) : Verdict v r ((fromParts positive s (clampExponent e) r).map (·, r)) where
  accepts hv := by
    obtain ⟨n, hn⟩ := fromParts_clamp_ok r happrox hv
    exact ⟨n, by rw [hn]; rfl⟩
  refuses hv := ⟨r, by rw [fromParts_clamp_error r happrox hs hv]; rfl⟩

end Scale

/-! ### The exponent -/

section Exponent

variable {positive : Bool}

theorem readExponent_digit {s : ℕ} {e : ℤ} {d : Char} (hd : d.isDigit = true) (rest : List Char) :
    readExponent positive s e (d :: rest) =
      readExponentDigits positive true s e (digitValue d) rest := by
  rw [readExponent, exponentSign_of_digit hd]
  dsimp only
  rw [if_pos hd]

theorem readExponent_plus {s : ℕ} {e : ℤ} {d : Char} (hd : d.isDigit = true) (rest : List Char) :
    readExponent positive s e ('+' :: d :: rest) =
      readExponentDigits positive true s e (digitValue d) rest := by
  rw [readExponent, show exponentSign ('+' :: d :: rest) = (true, d :: rest) from rfl]
  dsimp only
  rw [if_pos hd]

theorem readExponent_minus {s : ℕ} {e : ℤ} {d : Char} (hd : d.isDigit = true) (rest : List Char) :
    readExponent positive s e ('-' :: d :: rest) =
      readExponentDigits positive false s e (digitValue d) rest := by
  rw [readExponent, show exponentSign ('-' :: d :: rest) = (false, d :: rest) from rfl]
  dsimp only
  rw [if_pos hd]

theorem readExponentDigits_digits {pe : Bool} {s : ℕ} {start : ℤ} {value : ℕ} {ds : List Char}
    (rest : List Char) (hds : AllDigits ds) (hfit : Nat.ofDigitChars 10 ds value ≤ maxI32) :
    readExponentDigits positive pe s start value (ds ++ rest) =
      readExponentDigits positive pe s start (Nat.ofDigitChars 10 ds value) rest := by
  induction ds generalizing value with
  | nil => rfl
  | cons d ds ih =>
      obtain ⟨hd, hds'⟩ := allDigits_cons.1 hds
      rw [ofDigitChars_cons_digit] at hfit ⊢
      have hfits : ¬ value * 10 + digitValue d > maxI32 :=
        Nat.not_lt.mpr (Nat.le_trans (le_ofDigitChars ds _) hfit)
      simp only [List.cons_append, readExponentDigits, hd, if_true, if_neg hfits]
      exact ih hds' hfit

theorem readExponentDigits_end {pe : Bool} {s : ℕ} {start : ℤ} {value : ℕ} {r : List Char}
    (hr : ∀ c ∈ r.head?, c.isDigit = false) :
    readExponentDigits positive pe s start value r =
      readExponentDigits.finish positive pe s start value r := by
  cases r with
  | nil => rfl
  | cons c rest =>
      have hc : c.isDigit = false := hr c rfl
      simp only [readExponentDigits, hc, Bool.false_eq_true, if_false]

/-- An exponent past 32 bits makes a number with a non-zero significand and a positive exponent
out of range. -/
theorem readExponentDigits_overflow_error {s : ℕ} {start : ℤ} {value : ℕ} {d : Char}
    (hd : d.isDigit = true) (hover : maxI32 < value * 10 + digitValue d) (hs : s ≠ 0)
    (rest : List Char) :
    readExponentDigits positive true s start value (d :: rest) =
      .error (Fault.here .numberOutOfRange rest) := by
  rw [readExponentDigits.eq_1, if_pos hd]
  dsimp only
  rw [if_pos (show value * 10 + digitValue d > maxI32 from hover), if_pos ⟨hs, rfl⟩]

/-- Any other number whose exponent is past 32 bits is zero. -/
theorem readExponentDigits_overflow_zero {pe : Bool} {s : ℕ} {start : ℤ} {value : ℕ} {d : Char}
    (hd : d.isDigit = true) (hover : maxI32 < value * 10 + digitValue d)
    (h : ¬(s ≠ 0 ∧ pe = true)) (rest : List Char) :
    readExponentDigits positive pe s start value (d :: rest) =
      .ok (.float (Binary64.withSign (!positive) Binary64.zero), rest.dropWhile Char.isDigit) := by
  rw [readExponentDigits.eq_1, if_pos hd]
  dsimp only
  rw [if_pos (show value * 10 + digitValue d > maxI32 from hover), if_neg h]

/-- An exponent of value `X` past 32 bits, read up to the digit that overflows: the number is
out of range or zero, and its value is indeed far beyond the threshold or far below it, as its
own exponent is at most `2 ^ 30` either way. -/
theorem verdict_exponent_past {v : ℚ} {s : ℕ} {e : ℤ} (pe : Bool) {X value : ℕ} {d : Char}
    {ds r : List Char} (hd : d.isDigit = true) (hds : AllDigits ds)
    (hover : maxI32 < value * 10 + digitValue d) (hX : maxI32 < X) (hr : Delimited r)
    (happrox : Approx v s e) (hs : s ≤ maxU64) (he₁ : -2 ^ 30 ≤ e) (he₂ : e ≤ 2 ^ 30) :
    Verdict (v * 10 ^ (if pe then (X : ℤ) else -(X : ℤ))) r
      (readExponentDigits positive pe s e value (d :: (ds ++ r))) := by
  have hmax : maxI32 = 2147483647 := rfl
  have hrest : (ds ++ r).dropWhile Char.isDigit = r := by
    rw [List.dropWhile_append_of_pos hds, dropWhile_isDigit_of_head hr.head_not_digit]
  cases pe with
  | true =>
      rw [if_pos rfl]
      by_cases hs0 : s = 0
      · -- a zero significand stands for zero
        subst hs0
        rw [readExponentDigits_overflow_zero hd hover (fun h => h.1 rfl), hrest]
        exact ⟨fun _ => ⟨_, rfl⟩,
          fun hv => absurd ((happrox.scale _).pos_of_ge hs hv).1 (lt_irrefl 0)⟩
      · -- any other significand stands for a value far beyond the threshold
        rw [readExponentDigits_overflow_error hd hover hs0]
        refine ⟨fun hv => ?_, fun _ => ⟨_, rfl⟩⟩
        have := (happrox.scale _).exponent_le (Nat.pos_of_ne_zero hs0) hv
        omega
  | false =>
      -- a negative exponent past 32 bits leaves a value far below the threshold
      rw [if_neg Bool.false_ne_true,
        readExponentDigits_overflow_zero hd hover (fun h => Bool.false_ne_true h.2), hrest]
      refine ⟨fun _ => ⟨_, rfl⟩, fun hv => ?_⟩
      have := ((happrox.scale _).pos_of_ge hs hv).2
      omega

/-- The exponent's digits after its first: the significand is scaled by the exponent's value
when it fits 32 bits, and otherwise `verdict_exponent_past` applies. -/
theorem verdict_exponentDigits {v : ℚ} {s : ℕ} {e : ℤ} (pe : Bool) {d : Char} {ds r : List Char}
    (hds : AllDigits (d :: ds)) (hr : Delimited r) (happrox : Approx v s e) (hs : s ≤ maxU64)
    (he₁ : -2 ^ 30 ≤ e) (he₂ : e ≤ 2 ^ 30) :
    Verdict (v * 10 ^ (if pe then (Nat.ofDigitChars 10 (d :: ds) 0 : ℤ)
        else -(Nat.ofDigitChars 10 (d :: ds) 0 : ℤ)))
      r (readExponentDigits positive pe s e (digitValue d) (ds ++ r)) := by
  obtain ⟨hd, hds'⟩ := allDigits_cons.1 hds
  rw [ofDigitChars_cons_digit, Nat.zero_mul, Nat.zero_add]
  have hd32 : digitValue d ≤ maxI32 := le_trans (digitValue_le_nine hd) (by decide)
  rcases fits_or_overflows maxI32 hd32 ds with hfit | ⟨ds₁, d', ds₂, rfl, hfit, hover⟩
  · -- the exponent fits 32 bits: the significand is scaled by it
    rw [readExponentDigits_digits r hds' hfit, readExponentDigits_end hr.head_not_digit,
      readExponentDigits.finish]
    have hsum : ∀ X : ℕ,
        (if pe then e + X else e - X) = e + (if pe then (X : ℤ) else -(X : ℤ)) := by
      intro X
      cases pe <;> simp [sub_eq_add_neg]
    rw [hsum]
    exact verdict_fromParts r (happrox.scale _) hs
  · -- the exponent is past 32 bits from its digit `d'` on
    obtain ⟨hds₁, hds₂'⟩ := allDigits_append.1 hds'
    obtain ⟨hd', hds₂⟩ := allDigits_cons.1 hds₂'
    have hX : maxI32 < Nat.ofDigitChars 10 (ds₁ ++ d' :: ds₂) (digitValue d) := by
      rw [Nat.ofDigitChars_append, ofDigitChars_cons_digit]
      exact lt_of_lt_of_le hover (le_ofDigitChars _ _)
    rw [List.append_assoc, readExponentDigits_digits _ hds₁ hfit, List.cons_append]
    exact verdict_exponent_past pe hd' hds₂ hover hX hr happrox hs he₁ he₂

/-- The reader's verdict on what follows a number's digits: its exponent, if any, scales the
value that the significand stands for. -/
theorem verdict_exponent {v : ℚ} {s : ℕ} {e x : ℤ} {ex r : List Char} (hex : ExponentText ex x)
    (hr : Delimited r) (happrox : Approx v s e) (hs : s ≤ maxU64) (he₁ : -2 ^ 30 ≤ e)
    (he₂ : e ≤ 2 ^ 30) :
    Verdict (v * 10 ^ x) r (readAfterOverflow positive s e (ex ++ r)) := by
  cases hex with
  | none =>
      rw [List.nil_append, readAfterOverflow_delimited hr, zpow_zero, mul_one,
        ← clampExponent_of_le (e := e) (by omega) (by omega)]
      exact verdict_fromParts r happrox hs
  | unsigned he hds =>
      rw [List.cons_append, readAfterOverflow_exponent he, List.cons_append,
        readExponent_digit (allDigits_cons.1 hds).1]
      exact verdict_exponentDigits true hds hr happrox hs he₁ he₂
  | plus he hds =>
      rw [List.cons_append, readAfterOverflow_exponent he, List.cons_append, List.cons_append,
        readExponent_plus (allDigits_cons.1 hds).1]
      exact verdict_exponentDigits true hds hr happrox hs he₁ he₂
  | minus he hds =>
      rw [List.cons_append, readAfterOverflow_exponent he, List.cons_append, List.cons_append,
        readExponent_minus (allDigits_cons.1 hds).1]
      exact verdict_exponentDigits false hds hr happrox hs he₁ he₂

end Exponent

/-- Which numbers the reader accepts, by their value. A number written with integer digits,
fraction digits and an exponent is read when its value is more than `2 ^ -50` of the overflow
threshold below it, and is out of range when it is that much above it; the digits number fewer
than `2 ^ 30`, as the reader adds the exponent to their count in 32 bits. -/
theorem readNumber_range (positive : Bool) {int frac ex r : List Char} {x : ℤ}
    (hint : IntegerDigits int) (hfrac : AllDigits frac) (hex : ExponentText ex x)
    (hr : Delimited r) (hlen : int.length + frac.length < 2 ^ 30) :
    Verdict (decimalValue int frac x) r (readNumber positive (decimalText int frac ex ++ r)) := by
  rw [decimalValue_eq, decimalText, List.append_assoc (int ++ fractionText frac) ex r]
  rcases readNumber_digits positive hint hfrac (hex.head hr) with
    ⟨rfl, hfit, hread⟩ | ⟨s, e, hs, he₁, he₂, happrox, hread⟩
  · -- a whole number that fits, before its exponent
    rw [hread]
    have happrox : Approx (Nat.ofDigitChars 10 (int ++ []) 0 *
        10 ^ (-(([] : List Char).length : ℤ))) (Nat.ofDigitChars 10 int 0) 0 := by
      rw [List.append_nil, List.length_nil, Nat.cast_zero, neg_zero]
      exact Approx.exact _ _
    rcases hex.eq_nil_or with ⟨rfl, rfl⟩ | ⟨c, cs, rfl, hc⟩
    · -- no exponent: the integer itself, far below the threshold
      rw [List.nil_append, readNumberTail_delimited hr]
      refine ⟨fun _ => ⟨_, rfl⟩, fun hv => absurd hv (not_le.2 ?_)⟩
      rw [List.append_nil, List.length_nil, Nat.cast_zero, neg_zero, zpow_zero, mul_one, mul_one]
      calc (Nat.ofDigitChars 10 int 0 : ℚ) < 2 ^ 64 := cast_lt_of_le_maxU64 hfit
        _ < 2 ^ 65 := by norm_num
        _ < overflowThreshold := two_pow_lt_threshold
        _ ≤ overflowThreshold * (1 + 1 / 2 ^ 50) :=
            le_mul_of_one_le_right overflowThreshold_pos.le (by norm_num)
    · rw [List.cons_append, readNumberTail_exponent hc, ← List.cons_append]
      exact verdict_exponent hex hr happrox hfit (by norm_num) (by norm_num)
  · rw [hread]
    exact verdict_exponent hex hr happrox hs (by omega) (by omega)

/-- `1e400` is beyond the largest finite number and is refused. -/
example : readNumber true ['1', 'e', '4', '0', '0'] = .error (Fault.here .numberOutOfRange []) := by
  decide

/-- The same for every number of the grammar, by the value it is written with. -/
theorem readNumber_unsigned_range (positive : Bool) {cs r : List Char} (hu : Unsigned cs r)
    (hr : Delimited r) (hlen : cs.length < 2 ^ 30) :
    ∃ int frac ex x, cs = decimalText int frac ex ++ r ∧
      Verdict (decimalValue int frac x) r (readNumber positive cs) := by
  obtain ⟨int, frac, ex, x, hint, hfrac, hex, rfl⟩ := hu.decimal
  refine ⟨int, frac, ex, x, rfl, readNumber_range positive hint hfrac hex hr ?_⟩
  simp only [decimalText, List.length_append] at hlen
  have hfracLen : frac.length ≤ (fractionText frac).length := by
    cases frac with
    | nil => exact le_refl _
    | cons d ds => simp [fractionText]
  omega

end AccessRequest.Json
