import Mathlib
import AccessRequest.Proofs.Json.NumberForm

/-!
Numbers by their digits. A number is written as integer digits, fraction digits and an exponent
(`decimalText`), and every number of the grammar is so written; its value is its digits read as
a whole number, times ten to the exponent less the number of fraction digits (`decimalValue`).

The reader gathers the digits into a significand of 64 bits while it fits. A whole number that
fits is kept as it is; of any other number the reader holds a significand and a decimal exponent
that stand for the digits' value to within `10 ^ -18` of it (`Approx`), for once the significand
is full it is at least `10 ^ 18` and the digits it drops lie in the block of its last unit
(`readNumber_digits`).
-/

namespace AccessRequest.Json


/-! ### Numbers as written -/

/-- Decimal digits. -/
def AllDigits (ds : List Char) : Prop := ∀ d ∈ ds, d.isDigit = true

/-- The integer digits of a number: a single zero, or a digit from `1` to `9` and more digits. -/
def IntegerDigits (int : List Char) : Prop :=
  int = ['0'] ∨ ∃ d ds, int = d :: ds ∧ d ≠ '0' ∧ AllDigits (d :: ds)

/-- A number's exponent as written, and its value: nothing, or `e` or `E`, an optional sign and
at least one digit. -/
inductive ExponentText : List Char → ℤ → Prop
  | none : ExponentText [] 0
  | unsigned {e d : Char} {ds : List Char} : (e = 'e' ∨ e = 'E') → AllDigits (d :: ds) →
      ExponentText (e :: d :: ds) (Nat.ofDigitChars 10 (d :: ds) 0)
  | plus {e d : Char} {ds : List Char} : (e = 'e' ∨ e = 'E') → AllDigits (d :: ds) →
      ExponentText (e :: '+' :: d :: ds) (Nat.ofDigitChars 10 (d :: ds) 0)
  | minus {e d : Char} {ds : List Char} : (e = 'e' ∨ e = 'E') → AllDigits (d :: ds) →
      ExponentText (e :: '-' :: d :: ds) (-(Nat.ofDigitChars 10 (d :: ds) 0 : ℤ))

/-- A number's fraction as written: nothing without fraction digits, otherwise a point and the
digits. -/
def fractionText : List Char → List Char
  | [] => []
  | d :: ds => '.' :: d :: ds

/-- The text of a number after its optional minus: its integer digits, its fraction and its
exponent. -/
def decimalText (int frac ex : List Char) : List Char := int ++ fractionText frac ++ ex

/-- The value of a number so written: its digits read as a whole number, times ten to the
exponent less the number of fraction digits. -/
def decimalValue (int frac : List Char) (x : ℤ) : ℚ :=
  (Nat.ofDigitChars 10 (int ++ frac) 0 : ℚ) * 10 ^ (x - frac.length)

theorem allDigits_nil : AllDigits [] := List.forall_mem_nil _

theorem allDigits_append {ds ds' : List Char} :
    AllDigits (ds ++ ds') ↔ AllDigits ds ∧ AllDigits ds' :=
  List.forall_mem_append

theorem allDigits_cons {d : Char} {ds : List Char} :
    AllDigits (d :: ds) ↔ d.isDigit = true ∧ AllDigits ds :=
  List.forall_mem_cons

theorem IntegerDigits.allDigits {int : List Char} (h : IntegerDigits int) : AllDigits int := by
  rcases h with rfl | ⟨d, ds, rfl, -, hds⟩
  · intro c hc
    rw [List.mem_singleton.1 hc]
    rfl
  · exact hds

/-- What follows a number's fraction is neither a digit nor a point. -/
theorem ExponentText.head {ex r : List Char} {x : ℤ} (hex : ExponentText ex x)
    (hr : Delimited r) : ∀ c ∈ (ex ++ r).head?, c.isDigit = false ∧ c ≠ '.' := by
  intro c hc
  cases hex with
  | none =>
      cases r with
      | nil => cases hc
      | cons c' rest =>
          obtain rfl : c' = c := Option.some.inj hc
          exact ⟨hr.head_not_digit c' rfl, hr.ne_point⟩
  | unsigned he _ | plus he _ | minus he _ =>
      obtain rfl := Option.some.inj hc
      rcases he with rfl | rfl <;> decide

theorem ExponentText.eq_nil_or {ex : List Char} {x : ℤ} (hex : ExponentText ex x) :
    (ex = [] ∧ x = 0) ∨ ∃ c cs, ex = c :: cs ∧ (c = 'e' ∨ c = 'E') := by
  cases hex with
  | none => exact .inl ⟨rfl, rfl⟩
  | unsigned he _ | plus he _ | minus he _ => exact .inr ⟨_, _, rfl, he⟩

theorem DigitRun.eq_append {cs r : List Char} (h : DigitRun cs r) :
    ∃ ds, AllDigits ds ∧ cs = ds ++ r := by
  induction h with
  | done r => exact ⟨[], allDigits_nil, rfl⟩
  | digit hd _ ih =>
      obtain ⟨ds, hds, rfl⟩ := ih
      exact ⟨_ :: ds, allDigits_cons.2 ⟨hd, hds⟩, rfl⟩

/-- Every number of the grammar is written as integer digits, a fraction and an exponent. -/
theorem Unsigned.decimal {cs r : List Char} (h : Unsigned cs r) :
    ∃ int frac ex x, IntegerDigits int ∧ AllDigits frac ∧ ExponentText ex x ∧
      cs = decimalText int frac ex ++ r := by
  obtain ⟨afterInt, afterFrac, hint, hfrac, hexp⟩ := h
  -- the exponent, then the fraction before it, then the integer digits before that
  obtain ⟨ex, x, hex, rfl⟩ : ∃ ex x, ExponentText ex x ∧ afterFrac = ex ++ r := by
    cases hexp with
    | none => exact ⟨[], 0, .none, rfl⟩
    | unsigned he hd hrun =>
        obtain ⟨ds, hds, rfl⟩ := hrun.eq_append
        exact ⟨_, _, .unsigned he (allDigits_cons.2 ⟨hd, hds⟩), rfl⟩
    | signed he hs hd hrun =>
        obtain ⟨ds, hds, rfl⟩ := hrun.eq_append
        rcases hs with rfl | rfl
        · exact ⟨_, _, .plus he (allDigits_cons.2 ⟨hd, hds⟩), rfl⟩
        · exact ⟨_, _, .minus he (allDigits_cons.2 ⟨hd, hds⟩), rfl⟩
  obtain ⟨frac, hfrac', rfl⟩ :
      ∃ frac, AllDigits frac ∧ afterInt = fractionText frac ++ ex ++ r := by
    cases hfrac with
    | none => exact ⟨[], allDigits_nil, rfl⟩
    | some hd hrun =>
        obtain ⟨ds, hds, rfl⟩ := hrun.eq_append
        exact ⟨_ :: ds, allDigits_cons.2 ⟨hd, hds⟩, by simp [fractionText]⟩
  cases hint with
  | zero => exact ⟨['0'], frac, ex, x, .inl rfl, hfrac', hex, by simp [decimalText]⟩
  | digits hd hd0 hrun =>
      obtain ⟨ds, hds, heq⟩ := hrun.eq_append
      exact ⟨_ :: ds, frac, ex, x, .inr ⟨_, ds, rfl, hd0, allDigits_cons.2 ⟨hd, hds⟩⟩, hfrac', hex,
        by simp [decimalText, heq]⟩

theorem decimalValue_eq (int frac : List Char) (x : ℤ) :
    decimalValue int frac x =
      (Nat.ofDigitChars 10 (int ++ frac) 0 * 10 ^ (-(frac.length : ℤ))) * 10 ^ x := by
  rw [decimalValue, mul_assoc, ← zpow_add₀ (by norm_num), neg_add_eq_sub]

/-! ### Digits as a whole number -/

theorem digitValue_le_nine {d : Char} (hd : d.isDigit = true) : digitValue d ≤ 9 := by
  simp only [Char.isDigit, Bool.and_eq_true, decide_eq_true_eq, UInt32.le_iff_toNat_le] at hd
  unfold digitValue Char.toNat
  change 48 ≤ d.val.toNat ∧ d.val.toNat ≤ 57 at hd
  change d.val.toNat - 48 ≤ 9
  omega

/-- A digit read onto a whole number the way the reader does it. -/
theorem ofDigitChars_cons_digit (d : Char) (ds : List Char) (acc : ℕ) :
    Nat.ofDigitChars 10 (d :: ds) acc = Nat.ofDigitChars 10 ds (acc * 10 + digitValue d) := by
  rw [Nat.ofDigitChars_cons, digitValue, Nat.mul_comm]

/-- Digits after `a` spell a number in the block of `a` shifted by their count. -/
theorem ofDigitChars_bounds {ds : List Char} (h : AllDigits ds) (a : ℕ) :
    a * 10 ^ ds.length ≤ Nat.ofDigitChars 10 ds a ∧
      Nat.ofDigitChars 10 ds a < (a + 1) * 10 ^ ds.length := by
  induction ds generalizing a with
  | nil => simp [Nat.ofDigitChars_nil]
  | cons d ds ih =>
      obtain ⟨hd, hds⟩ := allDigits_cons.1 h
      have h9 := digitValue_le_nine hd
      obtain ⟨hlo, hhi⟩ := ih hds (a * 10 + digitValue d)
      rw [ofDigitChars_cons_digit, List.length_cons, pow_succ]
      constructor
      · calc a * (10 ^ ds.length * 10) = a * 10 * 10 ^ ds.length := by ring
          _ ≤ (a * 10 + digitValue d) * 10 ^ ds.length :=
              Nat.mul_le_mul_right _ (Nat.le_add_right _ _)
          _ ≤ _ := hlo
      · calc _ < (a * 10 + digitValue d + 1) * 10 ^ ds.length := hhi
          _ ≤ (a * 10 + 10) * 10 ^ ds.length := Nat.mul_le_mul_right _ (by omega)
          _ = (a + 1) * (10 ^ ds.length * 10) := by ring

/-- The block of `ofDigitChars_bounds`, scaled by a power of ten. -/
theorem ofDigitChars_block {ds : List Char} (h : AllDigits ds) (a : ℕ) (m : ℤ) :
    (a : ℚ) * 10 ^ ((ds.length : ℤ) + m) ≤ Nat.ofDigitChars 10 ds a * 10 ^ m ∧
      (Nat.ofDigitChars 10 ds a : ℚ) * 10 ^ m < (a + 1) * 10 ^ ((ds.length : ℤ) + m) := by
  obtain ⟨hlo, hhi⟩ := ofDigitChars_bounds h a
  have hlo' : (a : ℚ) * 10 ^ ds.length ≤ Nat.ofDigitChars 10 ds a := by exact_mod_cast hlo
  have hhi' : (Nat.ofDigitChars 10 ds a : ℚ) < (a + 1) * 10 ^ ds.length := by exact_mod_cast hhi
  have hm : (0 : ℚ) < 10 ^ m := by positivity
  rw [zpow_add₀ (by norm_num), zpow_natCast, ← mul_assoc, ← mul_assoc]
  exact ⟨mul_le_mul_of_nonneg_right hlo' hm.le, mul_lt_mul_of_pos_right hhi' hm⟩

/-- Digits gathered into an accumulator under a bound either all fit, or there is a first digit
that does not: the digits before it fit and it would carry the accumulator past the bound. -/
theorem fits_or_overflows (bound : ℕ) {acc : ℕ} (hacc : acc ≤ bound) (ds : List Char) :
    Nat.ofDigitChars 10 ds acc ≤ bound ∨
      ∃ ds₁ d ds₂, ds = ds₁ ++ d :: ds₂ ∧ Nat.ofDigitChars 10 ds₁ acc ≤ bound ∧
        bound < Nat.ofDigitChars 10 ds₁ acc * 10 + digitValue d := by
  induction ds generalizing acc with
  | nil => exact .inl hacc
  | cons d ds ih =>
      rw [ofDigitChars_cons_digit]
      by_cases hnext : acc * 10 + digitValue d ≤ bound
      · rcases ih hnext with hfit | ⟨ds₁, d', ds₂, rfl, hfit, hover⟩
        · exact .inl hfit
        · refine .inr ⟨d :: ds₁, d', ds₂, rfl, ?_, ?_⟩
          · rwa [ofDigitChars_cons_digit]
          · rwa [ofDigitChars_cons_digit]
      · exact .inr ⟨[], d, ds, rfl, hacc, by rw [Nat.ofDigitChars_nil]; omega⟩

/-- A significand that a digit carries past 64 bits is at least `10 ^ 18`. -/
theorem ten_pow_le_of_overflow {s : ℕ} {d : Char} (hd : d.isDigit = true)
    (hover : maxU64 < s * 10 + digitValue d) : 10 ^ 18 ≤ s := by
  have h9 := digitValue_le_nine hd
  unfold maxU64 at hover
  rw [show Nat.pow 2 64 = 18446744073709551616 from rfl] at hover
  omega

/-! ### A significand and an exponent that stand for a value -/

/-- A significand and a decimal exponent stand for `v` to within `v / 10 ^ 18`. -/
def Approx (v : ℚ) (s : ℕ) (e : ℤ) : Prop := |v - s * 10 ^ e| * 10 ^ 18 ≤ v

namespace Approx

theorem exact (s : ℕ) (e : ℤ) : Approx (s * 10 ^ e) s e := by
  unfold Approx
  rw [sub_self, abs_zero, zero_mul]
  positivity

theorem scale {v : ℚ} {s : ℕ} {e : ℤ} (h : Approx v s e) (x : ℤ) :
    Approx (v * 10 ^ x) s (e + x) := by
  unfold Approx at h ⊢
  have hx : (0 : ℚ) < 10 ^ x := by positivity
  rw [zpow_add₀ (by norm_num), ← mul_assoc, ← sub_mul, abs_mul, abs_of_pos hx]
  calc |v - s * 10 ^ e| * 10 ^ x * 10 ^ 18 = |v - s * 10 ^ e| * 10 ^ 18 * 10 ^ x := by ring
    _ ≤ v * 10 ^ x := mul_le_mul_of_nonneg_right h hx.le

/-- A value and a significand's value in one block of `10 ^ j`, which is at least the
`10 ^ 18`-th block: the significand stands for the value. -/
theorem of_block {v : ℚ} {a s : ℕ} {j e : ℤ} (ha : 10 ^ 18 ≤ a)
    (hv : a * 10 ^ j ≤ v ∧ v < (a + 1) * 10 ^ j)
    (hc : (a : ℚ) * 10 ^ j ≤ s * 10 ^ e ∧ (s : ℚ) * 10 ^ e < (a + 1) * 10 ^ j) :
    Approx v s e := by
  unfold Approx
  have hpos : (0 : ℚ) < 10 ^ j := by positivity
  have ha' : (10 : ℚ) ^ 18 ≤ a := by exact_mod_cast ha
  have hdiff : |v - s * 10 ^ e| ≤ 10 ^ j := by
    rw [abs_le]
    constructor <;> linarith [hv.1, hv.2, hc.1, hc.2]
  calc |v - s * 10 ^ e| * 10 ^ 18 ≤ 10 ^ j * 10 ^ 18 :=
        mul_le_mul_of_nonneg_right hdiff (by positivity)
    _ ≤ 10 ^ j * a := mul_le_mul_of_nonneg_left ha' hpos.le
    _ = a * 10 ^ j := mul_comm _ _
    _ ≤ v := hv.1

/-- Digits read with some of them dropped. From a significand `a` of at least `10 ^ 18`, the
`kept` digits were gathered into it and the digits before and after them only moved the exponent;
the whole digits' value over `10 ^ c` is stood for. -/
theorem of_digits {a N : ℕ} {c e : ℤ} (dropped kept rest : List Char) (ha : 10 ^ 18 ≤ a)
    (hd : AllDigits (dropped ++ kept ++ rest))
    (hN : N = Nat.ofDigitChars 10 (dropped ++ kept ++ rest) a)
    (he : e = dropped.length + rest.length - c) :
    Approx (N * 10 ^ (-c)) (Nat.ofDigitChars 10 kept a) e := by
  have hkept : AllDigits kept := (allDigits_append.1 (allDigits_append.1 hd).1).2
  obtain ⟨hv₁, hv₂⟩ := ofDigitChars_block hd a (-c)
  obtain ⟨hc₁, hc₂⟩ := ofDigitChars_block hkept a e
  -- both sit in the block of `a` at the place of the dropped digits
  have hplace : ((dropped ++ kept ++ rest).length : ℤ) + -c = kept.length + e := by
    simp only [List.length_append]
    push_cast
    omega
  rw [hplace, ← hN] at hv₁ hv₂
  exact of_block ha ⟨hv₁, hv₂⟩ ⟨hc₁, hc₂⟩

/-- The significand's value lies within `10 ^ -18` of the value on either side. -/
theorem bounds {v : ℚ} {s : ℕ} {e : ℤ} (h : Approx v s e) :
    (s : ℚ) * 10 ^ e ≤ v * (1 + 1 / 10 ^ 18) ∧ v * (1 - 1 / 10 ^ 18) ≤ s * 10 ^ e := by
  unfold Approx at h
  have h' : |v - s * 10 ^ e| ≤ v / 10 ^ 18 := by
    rw [le_div_iff₀ (by positivity)]
    exact h
  rw [abs_le] at h'
  constructor <;> linarith [h'.1, h'.2]

end Approx

/-! ### The reader on runs of digits -/

theorem dropWhile_isDigit_of_head {cs : List Char} (h : ∀ c ∈ cs.head?, c.isDigit = false) :
    cs.dropWhile Char.isDigit = cs := by
  cases cs with
  | nil => rfl
  | cons c rest => exact List.dropWhile_cons_of_neg (by simp [h c rfl])

theorem takeWhile_isDigit_of_head {cs : List Char} (h : ∀ c ∈ cs.head?, c.isDigit = false) :
    cs.takeWhile Char.isDigit = [] := by
  cases cs with
  | nil => rfl
  | cons c rest => simp [h c rfl]

section Reader

variable {positive : Bool}

theorem readAfterOverflow_digits {s : ℕ} {e : ℤ} {ds : List Char} (rest : List Char)
    (hds : AllDigits ds) :
    readAfterOverflow positive s e (ds ++ rest) = readAfterOverflow positive s e rest := by
  unfold readAfterOverflow
  rw [List.dropWhile_append_of_pos hds]

theorem readAfterOverflow_delimited {s : ℕ} {e : ℤ} {r : List Char} (hr : Delimited r) :
    readAfterOverflow positive s e r = (fromParts positive s e r).map (·, r) := by
  rw [readAfterOverflow, dropWhile_isDigit_of_head hr.head_not_digit]
  cases r with
  | nil => rfl
  | cons c rest =>
      dsimp only
      rw [if_neg hr.not_exponent]

theorem readAfterOverflow_exponent {s : ℕ} {e : ℤ} {c : Char} (hc : c = 'e' ∨ c = 'E')
    (cs : List Char) : readAfterOverflow positive s e (c :: cs) = readExponent positive s e cs := by
  have hdigit : c.isDigit = false := by rcases hc with rfl | rfl <;> rfl
  rw [readAfterOverflow, List.dropWhile_cons_of_neg (by simp [hdigit])]
  dsimp only
  rw [if_pos hc]

theorem readFraction_digits {s : ℕ} {j : ℤ} {count : ℕ} {ds : List Char} (rest : List Char)
    (hds : AllDigits ds) (hfit : Nat.ofDigitChars 10 ds s ≤ maxU64) :
    readFraction positive s j count (ds ++ rest) =
      readFraction positive (Nat.ofDigitChars 10 ds s) j (count + ds.length) rest := by
  induction ds generalizing s count with
  | nil => rfl
  | cons d ds ih =>
      obtain ⟨hd, hds'⟩ := allDigits_cons.1 hds
      rw [ofDigitChars_cons_digit] at hfit ⊢
      -- no prefix of the digits overflows, since their value only grows
      have hfits : ¬ s * 10 + digitValue d > maxU64 :=
        Nat.not_lt.mpr (Nat.le_trans (le_ofDigitChars ds _) hfit)
      simp only [List.cons_append, readFraction, hd, if_true, if_neg hfits]
      rw [ih hds' hfit, List.length_cons]
      congr 1
      omega

theorem readFraction_overflow {s : ℕ} {j : ℤ} {count : ℕ} {d : Char} (hd : d.isDigit = true)
    (hover : maxU64 < s * 10 + digitValue d) (rest : List Char) :
    readFraction positive s j count (d :: rest) =
      readAfterOverflow positive s (j - count) (d :: rest) := by
  simp only [readFraction, hd, if_true, gt_iff_lt, if_pos hover]

theorem readFraction_end {s : ℕ} {j : ℤ} {count : ℕ} {cs : List Char} (hcount : count ≠ 0)
    (hcs : ∀ c ∈ cs.head?, c.isDigit = false) :
    readFraction positive s j count cs = readAfterOverflow positive s (j - count) cs := by
  rw [readAfterOverflow, dropWhile_isDigit_of_head hcs]
  cases cs with
  | nil => simp only [readFraction, if_neg hcount]
  | cons c rest =>
      have hc : c.isDigit = false := hcs c rfl
      simp only [readFraction, hc, Bool.false_eq_true, if_false, if_neg hcount]

theorem readSignificand_overflow {s : ℕ} {d : Char} (hd : d.isDigit = true)
    (hover : maxU64 < s * 10 + digitValue d) (rest : List Char) :
    readSignificand positive s (d :: rest) = readLongInteger positive s (d :: rest) := by
  simp only [readSignificand, hd, if_true, gt_iff_lt, if_pos hover]

theorem readLongInteger_point {s : ℕ} {ds : List Char} (hds : AllDigits ds) (after : List Char) :
    readLongInteger positive s (ds ++ '.' :: after) =
      readFraction positive s ds.length 0 after := by
  have hhead : ∀ c ∈ ('.' :: after).head?, c.isDigit = false := by
    intro c hc
    obtain rfl := Option.some.inj hc
    rfl
  unfold readLongInteger
  dsimp only
  rw [List.takeWhile_append_of_pos hds, takeWhile_isDigit_of_head hhead, List.append_nil,
    List.dropWhile_append_of_pos hds, dropWhile_isDigit_of_head hhead]
  rfl

theorem readLongInteger_of_ne_point {s : ℕ} {ds rest : List Char} (hds : AllDigits ds)
    (hrest : ∀ c ∈ rest.head?, c.isDigit = false) (hpoint : rest.head? ≠ some '.') :
    readLongInteger positive s (ds ++ rest) = readAfterOverflow positive s ds.length rest := by
  unfold readLongInteger
  dsimp only
  rw [List.takeWhile_append_of_pos hds, takeWhile_isDigit_of_head hrest, List.append_nil,
    List.dropWhile_append_of_pos hds, dropWhile_isDigit_of_head hrest, readAfterOverflow,
    dropWhile_isDigit_of_head hrest]
  cases rest with
  | nil => rfl
  | cons c after =>
      have hc : c ≠ '.' := fun h => hpoint (by rw [h]; rfl)
      dsimp only
      split
      · next heq => exact absurd (List.cons.inj heq).1 hc
      · next heq =>
          obtain ⟨rfl, rfl⟩ := List.cons.inj heq
          rfl
      · next heq => cases heq

theorem readNumberTail_exponent {s : ℕ} {c : Char} (hc : c = 'e' ∨ c = 'E') (cs : List Char) :
    readNumberTail positive s (c :: cs) = readAfterOverflow positive s 0 (c :: cs) := by
  rw [readAfterOverflow_exponent hc, readNumberTail.eq_2 _ _ _ _ (ne_point_of_exponent hc),
    if_pos hc]

/-- A number's integer digits are read as digits gathered from zero. -/
theorem readNumber_integerDigits {int rest : List Char} (hint : IntegerDigits int)
    (hrest : ∀ c ∈ rest.head?, c.isDigit = false) :
    readNumber positive (int ++ rest) = readSignificand positive 0 (int ++ rest) := by
  rcases hint with rfl | ⟨d, ds, rfl, hd0, hds⟩
  · -- a single zero, and no digit after it
    have hzero : readSignificand positive 0 (['0'] ++ rest) = readSignificand positive 0 rest := by
      have hdv : digitValue '0' = 0 := rfl
      simp only [List.singleton_append, readSignificand, hdv, show '0'.isDigit = true from rfl,
        if_true, Nat.zero_mul, Nat.add_zero, gt_iff_lt, Nat.not_lt_zero, if_false]
    rw [hzero, readSignificand_end hrest]
    cases rest with
    | nil => rfl
    | cons c after =>
        rw [List.singleton_append, readNumber.eq_2, if_neg (by simp [hrest c rfl])]
  · -- a first digit from `1` to `9`
    have hd := (allDigits_cons.1 hds).1
    have hfit : ¬ digitValue d > maxU64 := by
      have h9 := digitValue_le_nine hd
      unfold maxU64
      rw [show Nat.pow 2 64 = 18446744073709551616 from rfl]
      omega
    rw [List.cons_append, readNumber.eq_4 _ _ _ hd0, if_pos hd]
    simp only [readSignificand, hd, if_true, if_neg hfit, Nat.zero_mul, Nat.zero_add]

end Reader

/-! ### Digits into a significand -/

/-- Fraction digits are gathered into the significand while it fits; the significand then holds
some first digits of the fraction, and either all of them or at least `10 ^ 18`. -/
theorem readFraction_text (positive : Bool) (j : ℤ) (count : ℕ) {s : ℕ} {frac tail : List Char}
    (hs : s ≤ maxU64) (hfrac : AllDigits frac) (htail : ∀ c ∈ tail.head?, c.isDigit = false)
    (hcount : count + frac.length ≠ 0) :
    ∃ kept rest, frac = kept ++ rest ∧ Nat.ofDigitChars 10 kept s ≤ maxU64 ∧
      (rest = [] ∨ 10 ^ 18 ≤ Nat.ofDigitChars 10 kept s) ∧
      readFraction positive s j count (frac ++ tail) =
        readAfterOverflow positive (Nat.ofDigitChars 10 kept s) (j - (count + kept.length : ℕ))
          tail := by
  rcases fits_or_overflows maxU64 hs frac with hfit | ⟨kept, d, rest, rfl, hfit, hover⟩
  · refine ⟨frac, [], (List.append_nil _).symm, hfit, .inl rfl, ?_⟩
    rw [readFraction_digits tail hfrac hfit, readFraction_end hcount htail]
  · obtain ⟨hkept, hrest⟩ := allDigits_append.1 hfrac
    have hd := (allDigits_cons.1 hrest).1
    refine ⟨kept, d :: rest, rfl, hfit, .inr (ten_pow_le_of_overflow hd hover), ?_⟩
    rw [List.append_assoc, readFraction_digits _ hkept hfit, List.cons_append,
      readFraction_overflow hd hover, ← List.cons_append, readAfterOverflow_digits _ hrest]

/-- Integer digits are gathered into the significand while it fits: all of them, or some first
ones worth at least `10 ^ 18`, after which the rest are counted. -/
theorem readSignificand_text (positive : Bool) {acc : ℕ} {ds rest : List Char} (hacc : acc ≤ maxU64)
    (hds : AllDigits ds) (hrest : ∀ c ∈ rest.head?, c.isDigit = false) :
    (Nat.ofDigitChars 10 ds acc ≤ maxU64 ∧
      readSignificand positive acc (ds ++ rest) =
        readNumberTail positive (Nat.ofDigitChars 10 ds acc) rest) ∨
    ∃ kept dropped, ds = kept ++ dropped ∧ AllDigits dropped ∧
      10 ^ 18 ≤ Nat.ofDigitChars 10 kept acc ∧ Nat.ofDigitChars 10 kept acc ≤ maxU64 ∧
      readSignificand positive acc (ds ++ rest) =
        readLongInteger positive (Nat.ofDigitChars 10 kept acc) (dropped ++ rest) := by
  rcases fits_or_overflows maxU64 hacc ds with hfit | ⟨kept, d, dropped, rfl, hfit, hover⟩
  · exact .inl ⟨hfit, by rw [readSignificand_digits rest hds hfit, readSignificand_end hrest]⟩
  · obtain ⟨hkept, hdropped⟩ := allDigits_append.1 hds
    have hd := (allDigits_cons.1 hdropped).1
    refine .inr ⟨kept, d :: dropped, rfl, hdropped, ten_pow_le_of_overflow hd hover, hfit, ?_⟩
    rw [List.append_assoc, readSignificand_digits _ hkept hfit, List.cons_append,
      readSignificand_overflow hd hover]

/-! ### Numbers by their value -/

/-- Fraction digits after integer digits that fit: the significand gathers them while it fits,
and stands for all of them. -/
theorem readNumberTail_fraction (positive : Bool) {acc : ℕ} {frac tail : List Char}
    (hacc : acc ≤ maxU64) (hfrac : AllDigits frac) (hne : frac ≠ [])
    (htail : ∀ c ∈ tail.head?, c.isDigit = false) :
    ∃ s e, s ≤ maxU64 ∧ -(frac.length : ℤ) ≤ e ∧ e ≤ 0 ∧
      Approx (Nat.ofDigitChars 10 frac acc * 10 ^ (-(frac.length : ℤ))) s e ∧
      readNumberTail positive acc (fractionText frac ++ tail) =
        readAfterOverflow positive s e tail := by
  obtain ⟨d, ds, rfl⟩ := List.exists_cons_of_ne_nil hne
  obtain ⟨kept, rest, hsplit, hfit, hcase, hread⟩ :=
    readFraction_text positive 0 0 hacc hfrac htail (by simp)
  have hlen : (d :: ds).length = kept.length + rest.length := by
    rw [hsplit, List.length_append]
  refine ⟨_, _, hfit, by omega, by omega, ?_, hread⟩
  rcases hcase with rfl | hbig
  · -- every fraction digit was gathered: the significand is the value exactly
    have hvalue : (Nat.ofDigitChars 10 (d :: ds) acc : ℚ) * 10 ^ (-((d :: ds).length : ℤ)) =
        Nat.ofDigitChars 10 kept acc * 10 ^ ((0 : ℤ) - ((0 + kept.length : ℕ) : ℤ)) := by
      rw [hsplit, List.append_nil]
      congr 2
      push_cast
      ring
    rw [hvalue]
    exact Approx.exact _ _
  · -- the fraction overflowed the significand, and its last digits were dropped
    have hrest : AllDigits ([] ++ [] ++ rest) := (allDigits_append.1 (hsplit ▸ hfrac)).2
    refine Approx.of_digits [] [] rest hbig hrest ?_ (by simp only [List.length_nil]; omega)
    rw [hsplit, Nat.ofDigitChars_append]
    rfl

/-- Digits after integer digits that overflowed the significand: the rest of the integer digits
only raise the exponent, and fraction digits are gathered while the significand fits. -/
theorem readLongInteger_rest (positive : Bool) {a : ℕ} {dropped frac tail : List Char}
    (ha : 10 ^ 18 ≤ a) (hfit : a ≤ maxU64) (hdropped : AllDigits dropped)
    (hfrac : AllDigits frac) (hdigit : ∀ c ∈ tail.head?, c.isDigit = false)
    (hpoint : tail.head? ≠ some '.') :
    ∃ s e, s ≤ maxU64 ∧ -(frac.length : ℤ) ≤ e ∧ e ≤ dropped.length ∧
      Approx (Nat.ofDigitChars 10 (dropped ++ frac) a * 10 ^ (-(frac.length : ℤ))) s e ∧
      readLongInteger positive a (dropped ++ (fractionText frac ++ tail)) =
        readAfterOverflow positive s e tail := by
  cases frac with
  | nil =>
      refine ⟨_, _, hfit, by simp, le_refl _, ?_,
        readLongInteger_of_ne_point hdropped hdigit hpoint⟩
      exact Approx.of_digits dropped [] [] ha (by simpa using hdropped) (by simp) (by simp)
  | cons d ds =>
      rw [show fractionText (d :: ds) = '.' :: d :: ds from rfl, List.cons_append,
        readLongInteger_point hdropped]
      obtain ⟨kept, rest, hsplit, hfit', -, hread⟩ :=
        readFraction_text positive dropped.length 0 hfit hfrac hdigit (by simp)
      have hlen : (d :: ds).length = kept.length + rest.length := by
        rw [hsplit, List.length_append]
      refine ⟨_, _, hfit', by omega, by omega, ?_, hread⟩
      have hdigits : AllDigits (dropped ++ kept ++ rest) := by
        rw [List.append_assoc, ← hsplit]
        exact allDigits_append.2 ⟨hdropped, hfrac⟩
      refine Approx.of_digits dropped kept rest ha hdigits ?_ (by omega)
      rw [hsplit, List.append_assoc]

/-- The reader on a number's digits, up to its exponent: a whole number that fits is held as it
is, and any other number as a significand and an exponent that stand for the digits' value, to be
scaled by the exponent. -/
theorem readNumber_digits (positive : Bool) {int frac tail : List Char} (hint : IntegerDigits int)
    (hfrac : AllDigits frac) (htail : ∀ c ∈ tail.head?, c.isDigit = false ∧ c ≠ '.') :
    (frac = [] ∧ Nat.ofDigitChars 10 int 0 ≤ maxU64 ∧
      readNumber positive (int ++ fractionText frac ++ tail) =
        readNumberTail positive (Nat.ofDigitChars 10 int 0) tail) ∨
    ∃ s e, s ≤ maxU64 ∧ -(frac.length : ℤ) ≤ e ∧ e ≤ int.length ∧
      Approx (Nat.ofDigitChars 10 (int ++ frac) 0 * 10 ^ (-(frac.length : ℤ))) s e ∧
      readNumber positive (int ++ fractionText frac ++ tail) =
        readAfterOverflow positive s e tail := by
  have hdigit : ∀ c ∈ tail.head?, c.isDigit = false := fun c hc => (htail c hc).1
  have hpoint : tail.head? ≠ some '.' := fun h => (htail '.' h).2 rfl
  have hafter : ∀ c ∈ (fractionText frac ++ tail).head?, c.isDigit = false := by
    cases frac with
    | nil => exact hdigit
    | cons d ds =>
        intro c hc
        obtain rfl := Option.some.inj hc
        rfl
  rw [List.append_assoc, readNumber_integerDigits hint hafter]
  rcases readSignificand_text positive (Nat.zero_le _) hint.allDigits hafter with
    ⟨hfit, hread⟩ | ⟨kept, dropped, rfl, hdropped, hbig, hfit, hread⟩
  · -- the integer digits fit the significand
    rw [hread]
    cases frac with
    | nil => exact .inl ⟨rfl, hfit, rfl⟩
    | cons d ds =>
        obtain ⟨s, e, hs, he₁, he₂, happrox, hread'⟩ :=
          readNumberTail_fraction positive hfit hfrac (List.cons_ne_nil d ds) hdigit
        refine .inr ⟨s, e, hs, he₁, by omega, ?_, hread'⟩
        rwa [Nat.ofDigitChars_append]
  · -- the integer digits overflowed the significand, and its last digits only count
    rw [hread, List.append_assoc]
    obtain ⟨s, e, hs, he₁, he₂, happrox, hread'⟩ :=
      readLongInteger_rest positive hbig hfit hdropped hfrac hdigit hpoint
    refine .inr ⟨s, e, hs, he₁, by simp only [List.length_append]; omega, ?_, hread'⟩
    rwa [Nat.ofDigitChars_append]

end AccessRequest.Json
