import Mathlib
import AccessRequest.Binary64.Basic

/-!
The rounding of `Binary64.ofRatio?` as exact arithmetic on rationals. The place exponent puts a
ratio between `2 ^ 52` and `2 ^ 53` units of its last place; the rounded significand is the
scaled quotient or one more, so a normal result is within one unit of its last place of the
ratio, a relative error of at most `2 ^ -52`; and a ratio rounds beyond the largest finite
number exactly from `2 ^ 1024 - 2 ^ 970` on: the midpoint between the largest finite number
`(2 ^ 53 - 1) · 2 ^ 971` and `2 ^ 1024`, where the tie goes to the even significand `2 ^ 53`.
A product of two magnitudes is refused exactly from that threshold on, and a natural number or
a power of ten below it is rounded to within that relative error.
-/

namespace AccessRequest.Binary64

/-- The magnitude a pattern stands for: its significand times two to its exponent. -/
def magnitude (x : Binary64) : ℚ := x.significand * 2 ^ x.exponent

/-- The least magnitude that rounds beyond the largest finite number `(2 ^ 53 - 1) · 2 ^ 971`:
the midpoint between it and `2 ^ 1024`. -/
def overflowThreshold : ℚ := 2 ^ 1024 - 2 ^ 970

theorem overflowThreshold_eq : overflowThreshold = (2 ^ 53 - 1 / 2) * 2 ^ (971 : ℤ) := by
  rw [overflowThreshold, show (971 : ℤ) = ((970 : ℕ) : ℤ) + 1 from rfl,
    zpow_add_one₀ two_ne_zero, zpow_natCast, show (1024 : ℕ) = 54 + 970 from rfl, pow_add]
  generalize (2 : ℚ) ^ 970 = x
  ring

/-! ### The scaled quotient -/

/-- A power of two with an integer exponent, as the two natural powers `scaledQuotient`
multiplies its numerator and denominator by. -/
theorem two_zpow_eq_div (s : ℤ) : (2 : ℚ) ^ s = 2 ^ s.toNat / 2 ^ (-s).toNat := by
  rcases le_total 0 s with hs | hs
  · rw [Int.toNat_of_nonpos (by omega : -s ≤ 0), pow_zero, div_one, ← zpow_natCast,
      Int.toNat_of_nonneg hs]
  · rw [Int.toNat_of_nonpos hs, pow_zero, one_div, ← zpow_natCast, Int.toNat_of_nonneg (by omega),
      ← zpow_neg, neg_neg]

/-- The numerator and denominator of `scaledQuotient a b (-e)` stand for `a / b` in units of
`2 ^ e`. -/
theorem scaledQuotient_ratio {a b : Nat} (hb : 0 < b) (e : ℤ) :
    ((a * Nat.pow 2 (-e).toNat : Nat) : ℚ) / (b * Nat.pow 2 (- -e).toNat : Nat) =
      a / b / 2 ^ e := by
  have hbq : (b : ℚ) ≠ 0 := by exact_mod_cast hb.ne'
  rw [neg_neg, Nat.pow_eq, Nat.pow_eq, two_zpow_eq_div e]
  push_cast
  field_simp

/-- The scaled quotient is the whole number of units of `2 ^ e` in `a / b`. -/
theorem scaledQuotient_bounds {a b : Nat} (hb : 0 < b) (e : ℤ) :
    ((scaledQuotient a b (-e)).1 : ℚ) * 2 ^ e ≤ a / b ∧
      (a : ℚ) / b < ((scaledQuotient a b (-e)).1 + 1) * 2 ^ e := by
  have hq : (scaledQuotient a b (-e)).1 =
      (a * Nat.pow 2 (-e).toNat) / (b * Nat.pow 2 (- -e).toNat) := rfl
  have hratio := scaledQuotient_ratio (a := a) hb e
  have hden : 0 < b * Nat.pow 2 (- -e).toNat := Nat.mul_pos hb (Nat.pow_pos (by decide))
  rw [hq]
  generalize a * Nat.pow 2 (-e).toNat = num at hratio
  generalize b * Nat.pow 2 (- -e).toNat = den at hratio hden
  have hdenq : (0 : ℚ) < den := by exact_mod_cast hden
  have hpow : (0 : ℚ) < 2 ^ e := by positivity
  have hlo : ((num / den : Nat) : ℚ) ≤ (num : ℚ) / den := by
    rw [le_div_iff₀ hdenq]
    exact_mod_cast Nat.div_mul_le_self num den
  have hhi : (num : ℚ) / den < (num / den : Nat) + 1 := by
    rw [div_lt_iff₀ hdenq, add_mul, one_mul]
    exact_mod_cast Nat.lt_div_mul_add hden
  rw [hratio] at hlo hhi
  exact ⟨(le_div_iff₀ hpow).1 hlo, (div_lt_iff₀ hpow).1 hhi⟩

/-! ### The place exponent -/

theorem two_zpow_add_ofNat (e : ℤ) (k : ℕ) [k.AtLeastTwo] :
    (2 : ℚ) ^ (e + OfNat.ofNat k) = 2 ^ (OfNat.ofNat k : ℕ) * 2 ^ e := by
  rw [zpow_add₀ two_ne_zero, zpow_ofNat, mul_comm]

/-- A positive ratio lies strictly between `2 ^ (a - b - 1)` and `2 ^ (a - b + 1)`, for the
binary logarithms `a` of its numerator and `b` of its denominator. -/
theorem ratio_log2_bounds {p q : Nat} (hp : 0 < p) (hq : 0 < q) :
    (2 : ℚ) ^ ((p.log2 : ℤ) - q.log2 - 1) < p / q ∧
      (p : ℚ) / q < 2 ^ ((p.log2 : ℤ) - q.log2 + 1) := by
  have hp1 : (2 : ℚ) ^ p.log2 ≤ p := by exact_mod_cast Nat.log2_self_le hp.ne'
  have hp2 : (p : ℚ) < 2 ^ (p.log2 + 1) := by exact_mod_cast Nat.lt_log2_self
  have hq1 : (2 : ℚ) ^ q.log2 ≤ q := by exact_mod_cast Nat.log2_self_le hq.ne'
  have hq2 : (q : ℚ) < 2 ^ (q.log2 + 1) := by exact_mod_cast Nat.lt_log2_self
  have hqq : (0 : ℚ) < q := by exact_mod_cast hq
  constructor
  · rw [lt_div_iff₀ hqq]
    calc (2 : ℚ) ^ ((p.log2 : ℤ) - q.log2 - 1) * q
        < 2 ^ ((p.log2 : ℤ) - q.log2 - 1) * 2 ^ (q.log2 + 1) := by gcongr
      _ = 2 ^ p.log2 := by
          rw [← zpow_natCast, ← zpow_natCast, ← zpow_add₀ two_ne_zero]
          congr 1
          push_cast
          ring
      _ ≤ p := hp1
  · rw [div_lt_iff₀ hqq]
    calc (p : ℚ) < 2 ^ (p.log2 + 1) := hp2
      _ = 2 ^ ((p.log2 : ℤ) - q.log2 + 1) * 2 ^ q.log2 := by
          rw [← zpow_natCast, ← zpow_natCast, ← zpow_add₀ two_ne_zero]
          congr 1
          push_cast
          ring
      _ ≤ 2 ^ ((p.log2 : ℤ) - q.log2 + 1) * q := by gcongr

/-- The place exponent puts a ratio between `2 ^ 52` and `2 ^ 53` units of its last place. -/
theorem placeExponent_spec {p q : Nat} (hp : 0 < p) (hq : 0 < q) :
    (2 : ℚ) ^ (placeExponent p q + 52) ≤ p / q ∧ (p : ℚ) / q < 2 ^ (placeExponent p q + 53) := by
  obtain ⟨hlo, hhi⟩ := ratio_log2_bounds hp hq
  have hsq := scaledQuotient_bounds (a := p) hq ((p.log2 : ℤ) - q.log2 - 52)
  unfold placeExponent
  dsimp only
  split
  · next hsmall =>
      -- the quotient at the first guess is below `2 ^ 52`: the place is one lower
      have hq0 : ((scaledQuotient p q (-((p.log2 : ℤ) - q.log2 - 52))).1 : ℚ) + 1 ≤ 2 ^ 52 := by
        exact_mod_cast Nat.succ_le_of_lt hsmall
      constructor
      · rw [show (p.log2 : ℤ) - q.log2 - 52 - 1 + 52 = (p.log2 : ℤ) - q.log2 - 1 by ring]
        exact hlo.le
      · calc (p : ℚ) / q
            < ((scaledQuotient p q (-((p.log2 : ℤ) - q.log2 - 52))).1 + 1) *
                2 ^ ((p.log2 : ℤ) - q.log2 - 52) := hsq.2
          _ ≤ 2 ^ 52 * 2 ^ ((p.log2 : ℤ) - q.log2 - 52) := by gcongr
          _ = 2 ^ ((p.log2 : ℤ) - q.log2 - 52 - 1 + 53) := by
              rw [show (p.log2 : ℤ) - q.log2 - 52 - 1 + 53 = (p.log2 : ℤ) - q.log2 - 52 + 52 by
                ring, two_zpow_add_ofNat]
  · next hbig =>
      have hq0 : (2 : ℚ) ^ 52 ≤ (scaledQuotient p q (-((p.log2 : ℤ) - q.log2 - 52))).1 := by
        exact_mod_cast Nat.le_of_not_lt hbig
      constructor
      · calc (2 : ℚ) ^ ((p.log2 : ℤ) - q.log2 - 52 + 52)
            = 2 ^ 52 * 2 ^ ((p.log2 : ℤ) - q.log2 - 52) := two_zpow_add_ofNat _ 52
          _ ≤ (scaledQuotient p q (-((p.log2 : ℤ) - q.log2 - 52))).1 *
                2 ^ ((p.log2 : ℤ) - q.log2 - 52) := by gcongr
          _ ≤ p / q := hsq.1
      · rw [show (p.log2 : ℤ) - q.log2 - 52 + 53 = (p.log2 : ℤ) - q.log2 + 1 by ring]
        exact hhi

/-! ### Patterns of normal numbers -/

/-- A normal significand and exponent are laid out in the pattern so that they read back. -/
theorem ofParts_fields {m : Nat} {e : ℤ} (hm : 2 ^ 52 ≤ m) (hm' : m < 2 ^ 53) (he : -1074 ≤ e)
    (he' : e ≤ 971) : (ofParts m e).significand = m ∧ (ofParts m e).exponent = e := by
  have hnot : ¬ m < Nat.pow 2 52 := by rw [Nat.pow_eq]; omega
  have hB : ((e + 1075).toNat : ℤ) = e + 1075 := Int.toNat_of_nonneg (by omega)
  generalize hBdef : (e + 1075).toNat = B at hB
  have hN : B * Nat.pow 2 52 + (m - Nat.pow 2 52) < UInt64.size := by
    rw [Nat.pow_eq]
    simp only [UInt64.size]
    omega
  have hbits : (ofParts m e).bits.toNat = B * 2 ^ 52 + (m - 2 ^ 52) := by
    rw [ofParts, if_neg hnot, hBdef]
    exact UInt64.toNat_ofNat_of_lt' hN
  have hexp : (ofParts m e).biasedExponent = B := by
    unfold biasedExponent
    rw [UInt64.toNat_and, UInt64.toNat_shiftRight, hbits, Nat.shiftRight_eq_div_pow,
      show UInt64.toNat 52 = 52 from rfl, show UInt64.toNat 2047 = 2 ^ 11 - 1 from rfl,
      Nat.and_two_pow_sub_one_eq_mod]
    norm_num
    omega
  have hfrac : (ofParts m e).fraction = m - 2 ^ 52 := by
    unfold fraction
    rw [UInt64.toNat_and, hbits, show UInt64.toNat 0xFFFFFFFFFFFFF = 2 ^ 52 - 1 from rfl,
      Nat.and_two_pow_sub_one_eq_mod]
    norm_num
    omega
  constructor
  · rw [significand, hexp, hfrac, if_neg (by omega), Nat.pow_eq]
    omega
  · rw [exponent, hexp, max_eq_left (by omega)]
    omega

/-! ### Rounding to nearest -/

/-- The rest of the scaled quotient is at least half a unit exactly when the ratio is at least
the quotient and a half, in units of `2 ^ e`. -/
theorem scaledQuotient_half_le_iff {a b : Nat} (hb : 0 < b) (e : ℤ) :
    (((scaledQuotient a b (-e)).1 : ℚ) + 1 / 2) * 2 ^ e ≤ a / b ↔
      b * Nat.pow 2 (- -e).toNat ≤
        2 * (a * Nat.pow 2 (-e).toNat % (b * Nat.pow 2 (- -e).toNat)) := by
  have hq : (scaledQuotient a b (-e)).1 =
      (a * Nat.pow 2 (-e).toNat) / (b * Nat.pow 2 (- -e).toNat) := rfl
  have hratio := scaledQuotient_ratio (a := a) hb e
  have hden : 0 < b * Nat.pow 2 (- -e).toNat := Nat.mul_pos hb (Nat.pow_pos (by decide))
  rw [hq]
  generalize a * Nat.pow 2 (-e).toNat = num at hratio ⊢
  generalize b * Nat.pow 2 (- -e).toNat = den at hratio hden ⊢
  have hdenq : (0 : ℚ) < den := by exact_mod_cast hden
  have hpow : (0 : ℚ) < 2 ^ e := by positivity
  have hsplit : (num : ℚ) = (num / den : ℕ) * den + (num % den : ℕ) := by
    exact_mod_cast (Nat.div_add_mod' num den).symm
  rw [← le_div_iff₀ hpow, ← hratio, le_div_iff₀ hdenq, hsplit]
  constructor
  · intro h
    have : (den : ℚ) ≤ 2 * (num % den : ℕ) := by linarith
    exact_mod_cast this
  · intro h
    have : (den : ℚ) ≤ 2 * (num % den : ℕ) := by exact_mod_cast h
    linarith

/-- Rounding up happens only where the rest is at least half a unit. -/
theorem half_le_of_scaledQuotient_up {a b : Nat} (hb : 0 < b) (e : ℤ)
    (h : (scaledQuotient a b (-e)).2 = true) :
    (((scaledQuotient a b (-e)).1 : ℚ) + 1 / 2) * 2 ^ e ≤ a / b := by
  rw [scaledQuotient_half_le_iff hb]
  simp only [scaledQuotient, Bool.or_eq_true, decide_eq_true_eq, Bool.and_eq_true,
    beq_iff_eq] at h
  omega

/-- At an odd quotient, a rest of at least half a unit rounds up: a tie goes to the even
neighbour. -/
theorem scaledQuotient_up_of_half_le {a b : Nat} (hb : 0 < b) (e : ℤ)
    (hodd : (scaledQuotient a b (-e)).1 % 2 = 1)
    (h : (((scaledQuotient a b (-e)).1 : ℚ) + 1 / 2) * 2 ^ e ≤ a / b) :
    (scaledQuotient a b (-e)).2 = true := by
  rw [scaledQuotient_half_le_iff hb] at h
  simp only [scaledQuotient, Bool.or_eq_true, decide_eq_true_eq, Bool.and_eq_true,
    beq_iff_eq] at hodd ⊢
  omega

/-- The rounded significand reaches `2 ^ 53` only by rounding up from `2 ^ 53 - 1`. -/
theorem round_eq_two_pow {m0 : Nat} {up : Bool} (hm : m0 < 2 ^ 53)
    (hc : (if up = true then m0 + 1 else m0) = Nat.pow 2 53) : up = true ∧ m0 + 1 = 2 ^ 53 := by
  rw [Nat.pow_eq] at hc
  cases up
  · rw [if_neg Bool.false_ne_true] at hc
    omega
  · rw [if_pos rfl] at hc
    exact ⟨rfl, hc⟩

section Ratio

variable {p q : Nat}

/-- The scaled quotient at the exponent `ofRatio?` rounds at has at most 53 bits, and exactly 53
where the place exponent is not below the least exponent. -/
theorem scaledQuotient_rounding_bounds (hp : 0 < p) (hq : 0 < q) :
    (scaledQuotient p q (-(max (placeExponent p q) (-1074)))).1 < 2 ^ 53 ∧
      (-1074 ≤ placeExponent p q →
        2 ^ 52 ≤ (scaledQuotient p q (-(max (placeExponent p q) (-1074)))).1) := by
  obtain ⟨hpe1, hpe2⟩ := placeExponent_spec hp hq
  obtain ⟨hsq1, hsq2⟩ := scaledQuotient_bounds (a := p) hq (max (placeExponent p q) (-1074))
  generalize (scaledQuotient p q (-(max (placeExponent p q) (-1074)))).1 = m at hsq1 hsq2 ⊢
  have hpow : (0 : ℚ) < 2 ^ max (placeExponent p q) (-1074) := by positivity
  constructor
  · have hlt : (m : ℚ) * 2 ^ max (placeExponent p q) (-1074) <
        2 ^ 53 * 2 ^ max (placeExponent p q) (-1074) := by
      calc (m : ℚ) * 2 ^ max (placeExponent p q) (-1074) ≤ p / q := hsq1
        _ < 2 ^ (placeExponent p q + 53) := hpe2
        _ ≤ 2 ^ (max (placeExponent p q) (-1074) + 53) :=
            zpow_le_zpow_right₀ (by norm_num) (by omega)
        _ = 2 ^ 53 * 2 ^ max (placeExponent p q) (-1074) := two_zpow_add_ofNat _ 53
    exact_mod_cast lt_of_mul_lt_mul_right hlt hpow.le
  · intro hnormal
    rw [max_eq_left hnormal] at hsq2 hpow
    have hlt : (2 : ℚ) ^ 52 * 2 ^ placeExponent p q < (m + 1) * 2 ^ placeExponent p q := by
      calc (2 : ℚ) ^ 52 * 2 ^ placeExponent p q = 2 ^ (placeExponent p q + 52) :=
            (two_zpow_add_ofNat _ 52).symm
        _ ≤ p / q := hpe1
        _ < (m + 1) * 2 ^ placeExponent p q := hsq2
    have : (2 : ℚ) ^ 52 < m + 1 := lt_of_mul_lt_mul_right hlt hpow.le
    have : 2 ^ 52 < m + 1 := by exact_mod_cast this
    omega

/-- A positive ratio rounds beyond the largest finite number exactly from the overflow
threshold on. -/
theorem ofRatio?_eq_none_iff (hp : 0 < p) (hq : 0 < q) :
    ofRatio? p q = none ↔ overflowThreshold ≤ p / q := by
  obtain ⟨hpe1, hpe2⟩ := placeExponent_spec hp hq
  obtain ⟨hm53, -⟩ := scaledQuotient_rounding_bounds hp hq
  have hsq := scaledQuotient_bounds (a := p) hq (max (placeExponent p q) (-1074))
  have hup := half_le_of_scaledQuotient_up (a := p) hq (max (placeExponent p q) (-1074))
  have hodd := scaledQuotient_up_of_half_le (a := p) hq (max (placeExponent p q) (-1074))
  have hthr := overflowThreshold_eq
  unfold ofRatio?
  rw [if_neg hp.ne']
  dsimp only
  generalize placeExponent p q = pe at *
  rcases hs : scaledQuotient p q (-(max pe (-1074))) with ⟨m0, up⟩
  rw [hs] at hm53 hsq hup hodd
  dsimp only at hm53 hsq hup hodd ⊢
  constructor
  · intro h
    by_cases hc : (if up = true then m0 + 1 else m0) = Nat.pow 2 53
    · -- the significand was carried: it was `2 ^ 53 - 1`, rounded up at exponent 971 or more
      rw [if_pos hc] at h
      dsimp only at h
      have he : 971 ≤ max pe (-1074) := by
        by_contra hne
        rw [if_neg (by omega)] at h
        cases h
      obtain ⟨hup', hcarry⟩ := round_eq_two_pow hm53 hc
      have hm0 : (m0 : ℚ) + 1 / 2 = 2 ^ 53 - 1 / 2 := by
        have : (m0 : ℚ) + 1 = 2 ^ 53 := by exact_mod_cast hcarry
        linarith
      calc overflowThreshold = (2 ^ 53 - 1 / 2) * 2 ^ (971 : ℤ) := hthr
        _ ≤ (2 ^ 53 - 1 / 2) * 2 ^ max pe (-1074) := by
            gcongr
            norm_num
        _ = ((m0 : ℚ) + 1 / 2) * 2 ^ max pe (-1074) := by rw [hm0]
        _ ≤ p / q := hup hup'
    · -- no carry: the exponent is the place exponent, above 971
      rw [if_neg hc] at h
      dsimp only at h
      have he : 971 < max pe (-1074) := by
        by_contra hne
        rw [if_neg hne] at h
        cases h
      calc overflowThreshold ≤ 2 ^ (1024 : ℤ) := by
            rw [overflowThreshold]
            norm_num
        _ ≤ 2 ^ (pe + 52) := zpow_le_zpow_right₀ (by norm_num) (by omega)
        _ ≤ p / q := hpe1
  · intro hr
    -- the ratio is at least `2 ^ 1023`, so its place exponent is at least 971
    have h1023 : (2 : ℚ) ^ (1023 : ℤ) < 2 ^ (pe + 53) := by
      calc (2 : ℚ) ^ (1023 : ℤ) = 2 ^ 52 * 2 ^ (971 : ℤ) := two_zpow_add_ofNat 971 52
        _ < overflowThreshold := by
            rw [hthr]
            exact mul_lt_mul_of_pos_right (by norm_num) (by positivity)
        _ ≤ p / q := hr
        _ < 2 ^ (pe + 53) := hpe2
    have hpe : 971 ≤ pe := by
      have := (zpow_lt_zpow_iff_right₀ (by norm_num : (1 : ℚ) < 2)).1 h1023
      omega
    rw [max_eq_left (by omega : -1074 ≤ pe)] at hsq hup hodd ⊢
    rcases (show pe = 971 ∨ 972 ≤ pe by omega) with rfl | hpe
    · -- at exponent 971 the quotient is `2 ^ 53 - 1`, odd, with a rest of at least a half
      have hlt : (2 ^ 53 - 1 / 2 : ℚ) * 2 ^ (971 : ℤ) < (m0 + 1) * 2 ^ (971 : ℤ) := by
        rw [← hthr]
        exact lt_of_le_of_lt hr hsq.2
      have hm0' : (2 ^ 53 - 1 / 2 : ℚ) < m0 + 1 := lt_of_mul_lt_mul_right hlt (by positivity)
      have hm0'' : 2 ^ 53 < m0 + 2 := by
        have : (2 ^ 53 : ℚ) < m0 + 2 := by linarith
        exact_mod_cast this
      have hcarry : m0 + 1 = 2 ^ 53 := by omega
      have hhalf : ((m0 : ℚ) + 1 / 2) * 2 ^ (971 : ℤ) ≤ p / q := by
        have hm0q : (m0 : ℚ) + 1 / 2 = 2 ^ 53 - 1 / 2 := by
          have : (m0 : ℚ) + 1 = 2 ^ 53 := by exact_mod_cast hcarry
          linarith
        rw [hm0q, ← hthr]
        exact hr
      -- so it rounds up to `2 ^ 53`, which is carried into exponent 972
      rw [if_pos (hodd (by omega) hhalf),
        if_pos (show m0 + 1 = Nat.pow 2 53 by rw [Nat.pow_eq]; exact hcarry)]
      dsimp only
      rw [if_pos (by norm_num)]
    · by_cases hc : (if up = true then m0 + 1 else m0) = Nat.pow 2 53
      · rw [if_pos hc]
        dsimp only
        rw [if_pos (by omega)]
      · rw [if_neg hc]
        dsimp only
        rw [if_pos (by omega)]

/-- A ratio of at least `2 ^ -1022` that does not overflow rounds to a normal number within one
unit of its last place: a relative error of at most `2 ^ -52`. -/
theorem ofRatio?_normal (hp : 0 < p) (hq : 0 < q) (hnormal : (2 : ℚ) ^ (-1022 : ℤ) ≤ p / q)
    {x : Binary64} (h : ofRatio? p q = some x) :
    2 ^ 52 ≤ x.significand ∧ |x.magnitude - p / q| ≤ p / q / 2 ^ 52 := by
  obtain ⟨hpe1, hpe2⟩ := placeExponent_spec hp hq
  have hpe : -1074 ≤ placeExponent p q := by
    have := (zpow_lt_zpow_iff_right₀ (by norm_num : (1 : ℚ) < 2)).1
      (lt_of_le_of_lt hnormal hpe2)
    omega
  obtain ⟨hm53, hm52⟩ := scaledQuotient_rounding_bounds hp hq
  have hsq := scaledQuotient_bounds (a := p) hq (max (placeExponent p q) (-1074))
  replace hm52 := hm52 hpe
  unfold ofRatio? at h
  rw [if_neg hp.ne'] at h
  dsimp only at h
  rw [max_eq_left hpe] at hm53 hm52 hsq h
  generalize placeExponent p q = pe at *
  rcases hs : scaledQuotient p q (-pe) with ⟨m0, up⟩
  rw [hs] at hm53 hm52 hsq h
  dsimp only at hm53 hm52 hsq h
  obtain ⟨hlo, hhi⟩ := hsq
  -- one unit of the last place is at most `2 ^ -52` of the ratio
  have hulp : (2 : ℚ) ^ pe ≤ p / q / 2 ^ 52 := by
    rw [le_div_iff₀ (by positivity), mul_comm, ← two_zpow_add_ofNat]
    exact hpe1
  have hpow : (0 : ℚ) ≤ 2 ^ pe := by positivity
  by_cases hc : (if up = true then m0 + 1 else m0) = Nat.pow 2 53
  · -- rounded up to `2 ^ 53`: the same magnitude as `2 ^ 52` at the next exponent
    rw [if_pos hc] at h
    dsimp only at h
    have he : ¬ pe + 1 > 971 := by
      intro hgt
      rw [if_pos hgt] at h
      cases h
    rw [if_neg he, Option.some.injEq] at h
    subst h
    have hcarry := (round_eq_two_pow hm53 hc).2
    obtain ⟨hsig, hexp⟩ := ofParts_fields (m := Nat.pow 2 52) (e := pe + 1)
      (by rw [Nat.pow_eq]) (by rw [Nat.pow_eq]; norm_num) (by omega) (by omega)
    refine ⟨by rw [hsig, Nat.pow_eq], ?_⟩
    have hmag : ((Nat.pow 2 52 : ℕ) : ℚ) * 2 ^ (pe + 1) = (m0 + 1) * 2 ^ pe := by
      have : (m0 : ℚ) + 1 = 2 ^ 53 := by exact_mod_cast hcarry
      rw [this, Nat.pow_eq, zpow_add_one₀ two_ne_zero]
      push_cast
      ring
    rw [magnitude, hsig, hexp, hmag, abs_le]
    constructor <;> linarith
  · -- no carry: the quotient or one more, at the place exponent
    rw [if_neg hc] at h
    dsimp only at h
    have he : ¬ pe > 971 := by
      intro hgt
      rw [if_pos hgt] at h
      cases h
    rw [if_neg he, Option.some.injEq] at h
    subst h
    have hm1 : m0 ≤ (if up = true then m0 + 1 else m0) ∧
        (if up = true then m0 + 1 else m0) ≤ m0 + 1 := by
      cases up <;> simp
    rw [Nat.pow_eq] at hc
    generalize (if up = true then m0 + 1 else m0) = m1 at hm1 hc ⊢
    obtain ⟨hsig, hexp⟩ := ofParts_fields (m := m1) (e := pe) (by omega) (by omega) hpe
      (by omega)
    refine ⟨by rw [hsig]; omega, ?_⟩
    have h1 : (m0 : ℚ) * 2 ^ pe ≤ m1 * 2 ^ pe :=
      mul_le_mul_of_nonneg_right (by exact_mod_cast hm1.1) hpow
    have h2 : (m1 : ℚ) * 2 ^ pe ≤ (m0 + 1) * 2 ^ pe :=
      mul_le_mul_of_nonneg_right (by exact_mod_cast hm1.2) hpow
    rw [magnitude, hsig, hexp, abs_le]
    constructor <;> linarith

end Ratio

/-! ### Products, whole numbers and powers of ten -/

theorem overflowThreshold_pos : 0 < overflowThreshold := by
  rw [overflowThreshold, sub_pos]
  exact pow_lt_pow_right₀ (by norm_num) (by norm_num)

/-- The product of two magnitudes is refused exactly from the overflow threshold on. -/
theorem mulMagnitude?_eq_none_iff (x y : Binary64) :
    x.mulMagnitude? y = none ↔ overflowThreshold ≤ x.magnitude * y.magnitude := by
  have hprod : x.magnitude * y.magnitude =
      ((x.significand * y.significand * Nat.pow 2 (x.exponent + y.exponent).toNat : ℕ) : ℚ) /
        (Nat.pow 2 (-(x.exponent + y.exponent)).toNat : ℕ) := by
    rw [magnitude, magnitude, Nat.pow_eq, Nat.pow_eq]
    push_cast
    rw [mul_mul_mul_comm, ← zpow_add₀ two_ne_zero, two_zpow_eq_div, mul_div_assoc]
  unfold mulMagnitude?
  dsimp only
  rw [hprod]
  have hden : 0 < Nat.pow 2 (-(x.exponent + y.exponent)).toNat := Nat.pow_pos (by decide)
  generalize x.significand * y.significand * Nat.pow 2 (x.exponent + y.exponent).toNat = num
  generalize Nat.pow 2 (-(x.exponent + y.exponent)).toNat = den at hden ⊢
  rcases Nat.eq_zero_or_pos num with rfl | hnum
  · -- a zero product rounds to zero
    rw [ofRatio?, if_pos rfl, Nat.cast_zero, zero_div]
    simp only [reduceCtorEq, false_iff, not_le]
    exact overflowThreshold_pos
  · exact ofRatio?_eq_none_iff hnum hden

theorem magnitude_nonneg (x : Binary64) : 0 ≤ x.magnitude := by
  unfold magnitude
  positivity

theorem isZero_eq_false {x : Binary64} (h : 2 ^ 52 ≤ x.significand) : x.isZero = false := by
  unfold isZero
  rw [beq_eq_false_iff_ne]
  omega

/-- A whole number below the overflow threshold rounds to a normal number within `2 ^ -52` of
itself. -/
theorem ofNat_normal {n : Nat} (hn : 0 < n) (hlt : (n : ℚ) < overflowThreshold) :
    2 ^ 52 ≤ (ofNat n).significand ∧ |(ofNat n).magnitude - n| ≤ n / 2 ^ 52 := by
  have hratio : ((n : ℕ) : ℚ) / ((1 : ℕ) : ℚ) = n := by rw [Nat.cast_one, div_one]
  have hsome : ofRatio? n 1 ≠ none := by
    rw [Ne, ofRatio?_eq_none_iff hn Nat.one_pos, hratio, not_le]
    exact hlt
  obtain ⟨x, hx⟩ := Option.ne_none_iff_exists'.1 hsome
  have hnormal : (2 : ℚ) ^ (-1022 : ℤ) ≤ (n : ℚ) / ((1 : ℕ) : ℚ) := by
    rw [hratio]
    calc (2 : ℚ) ^ (-1022 : ℤ) ≤ 1 := zpow_le_one_of_nonpos₀ (by norm_num) (by norm_num)
      _ ≤ n := by exact_mod_cast hn
  have hx' := ofRatio?_normal hn Nat.one_pos hnormal hx
  rw [hratio] at hx'
  rw [ofNat, hx, Option.getD_some]
  exact hx'

/-- The powers of ten in the table, up to `10 ^ 308`, are rounded to within `2 ^ -52`. -/
theorem pow10_normal {k : Nat} (hk : k ≤ 308) :
    2 ^ 52 ≤ (pow10 k).significand ∧ |(pow10 k).magnitude - 10 ^ k| ≤ 10 ^ k / 2 ^ 52 := by
  have h10 : ((Nat.pow 10 k : ℕ) : ℚ) = 10 ^ k := by
    rw [Nat.pow_eq]
    push_cast
    rfl
  have hbound : (10 : ℕ) ^ 308 + 2 ^ 970 < 2 ^ 1024 := by decide +kernel
  have hlt : (10 : ℚ) ^ k < overflowThreshold := by
    have hq : (10 : ℚ) ^ 308 + 2 ^ 970 < 2 ^ 1024 := by exact_mod_cast hbound
    calc (10 : ℚ) ^ k ≤ 10 ^ 308 := pow_le_pow_right₀ (by norm_num) hk
      _ < overflowThreshold := by
          rw [overflowThreshold, lt_sub_iff_add_lt]
          exact hq
  have := ofNat_normal (n := Nat.pow 10 k) (Nat.pow_pos (by decide)) (by rw [h10]; exact hlt)
  rw [h10] at this
  exact this

/-- A whole number below the threshold times a power of ten from the table, each rounded: the
product of the two magnitudes is the exact product to within a factor `(1 ± 2 ^ -52) ^ 2`. -/
theorem ofNat_mul_pow10_bounds {n k : Nat} (hn : 0 < n) (hlt : (n : ℚ) < overflowThreshold)
    (hk : k ≤ 308) :
    n * 10 ^ k * (1 - 1 / 2 ^ 52) ^ 2 ≤ (ofNat n).magnitude * (pow10 k).magnitude ∧
      (ofNat n).magnitude * (pow10 k).magnitude ≤ n * 10 ^ k * (1 + 1 / 2 ^ 52) ^ 2 := by
  obtain ⟨-, hx⟩ := ofNat_normal hn hlt
  obtain ⟨-, hy⟩ := pow10_normal hk
  rw [abs_le] at hx hy
  have hε : (0 : ℚ) ≤ 1 - 1 / 2 ^ 52 := by norm_num
  constructor
  · calc (n : ℚ) * 10 ^ k * (1 - 1 / 2 ^ 52) ^ 2 =
          (n * (1 - 1 / 2 ^ 52)) * (10 ^ k * (1 - 1 / 2 ^ 52)) := by ring
      _ ≤ (ofNat n).magnitude * (pow10 k).magnitude :=
          mul_le_mul (by linarith [hx.1]) (by linarith [hy.1]) (mul_nonneg (by positivity) hε)
            (magnitude_nonneg _)
  · calc (ofNat n).magnitude * (pow10 k).magnitude ≤
          (n * (1 + 1 / 2 ^ 52)) * (10 ^ k * (1 + 1 / 2 ^ 52)) :=
          mul_le_mul (by linarith [hx.2]) (by linarith [hy.2]) (magnitude_nonneg _) (by positivity)
      _ = n * 10 ^ k * (1 + 1 / 2 ^ 52) ^ 2 := by ring

end AccessRequest.Binary64
