import AccessRequest.Proofs.Json.Grammar

/-!
Skipping a number is its grammar. What `skipNumber` takes after a number's sign is an integer
part, an optional fraction and an optional exponent; and a number so written is taken whole when
what follows it cannot extend it, that is when it is delimited.
-/

namespace AccessRequest.Json

/-! ### Runs of digits -/

namespace DigitRun

/-- A run of digits ended by no digit is what `dropWhile` drops. -/
theorem dropWhile_eq {cs r : List Char} (h : DigitRun cs r)
    (hr : ∀ c ∈ r.head?, c.isDigit = false) : cs.dropWhile Char.isDigit = r := by
  induction h with
  | done r =>
      cases r with
      | nil => rfl
      | cons c rest => simp [hr c rfl]
  | digit hd _ ih => simp [hd, ih hr]

theorem of_dropWhile (cs : List Char) : DigitRun cs (cs.dropWhile Char.isDigit) := by
  induction cs with
  | nil => exact .done []
  | cons c rest ih =>
      by_cases hc : c.isDigit = true
      · rw [List.dropWhile_cons_of_pos hc]
        exact .digit hc ih
      · rw [List.dropWhile_cons_of_neg hc]
        exact .done _

end DigitRun

/-! ### What may follow a number -/

namespace Delimited

theorem cases_cons {c : Char} {r : List Char} (h : Delimited (c :: r)) :
    c = ' ' ∨ c = '\n' ∨ c = '\t' ∨ c = '\r' ∨ c = ',' ∨ c = ']' ∨ c = '}' := by
  simp only [Delimited, isBlank, Bool.or_eq_true, decide_eq_true_eq] at h
  simpa only [or_assoc] using h

theorem head_not_digit {r : List Char} (h : Delimited r) : ∀ c ∈ r.head?, c.isDigit = false := by
  cases r with
  | nil => simp
  | cons c rest =>
      simp only [List.head?_cons, Option.mem_def, Option.some.injEq, forall_eq']
      rcases cases_cons h with rfl | rfl | rfl | rfl | rfl | rfl | rfl <;> rfl

theorem ne_point {c : Char} {r : List Char} (h : Delimited (c :: r)) : c ≠ '.' := by
  rcases cases_cons h with rfl | rfl | rfl | rfl | rfl | rfl | rfl <;> decide

theorem not_exponent {c : Char} {r : List Char} (h : Delimited (c :: r)) :
    ¬ (c = 'e' ∨ c = 'E') := by
  rcases cases_cons h with rfl | rfl | rfl | rfl | rfl | rfl | rfl <;> decide

end Delimited

/-! ### Exponents -/

theorem expPart_of_skipExponent {e : Char} (he : e = 'e' ∨ e = 'E') {cs r : List Char}
    (h : skipExponent cs = .ok r) : ExpPart (e :: cs) r := by
  rw [skipExponent.eq_1] at h
  split at h
  · rename_i d rest hsign
    split at h
    · rename_i hd
      simp only [Except.ok.injEq] at h
      subst h
      have hrun := DigitRun.of_dropWhile rest
      unfold exponentSign at hsign
      split at hsign
      · simp only at hsign
        subst hsign
        exact .signed he (.inl rfl) hd hrun
      · simp only at hsign
        subst hsign
        exact .signed he (.inr rfl) hd hrun
      · simp only at hsign
        subst hsign
        exact .unsigned he hd hrun
    · cases h
  · cases h

theorem exponentSign_of_digit {d : Char} (hd : d.isDigit = true) (rest : List Char) :
    exponentSign (d :: rest) = (true, d :: rest) := by
  have hplus : d ≠ '+' := by
    rintro rfl
    exact absurd hd (by decide)
  have hminus : d ≠ '-' := by
    rintro rfl
    exact absurd hd (by decide)
  simp [exponentSign, hplus, hminus]

theorem ne_point_of_exponent {e : Char} (he : e = 'e' ∨ e = 'E') : e ≠ '.' := by
  rcases he with rfl | rfl <;> decide

theorem skipExponent_of_expPart {e : Char} {cs r : List Char} (he : e = 'e' ∨ e = 'E')
    (h : ExpPart (e :: cs) r) (hr : Delimited r) : skipExponent cs = .ok r := by
  cases h with
  | none => exact absurd he hr.not_exponent
  | unsigned _ hd hrun =>
      rw [skipExponent.eq_1, exponentSign_of_digit hd]
      simp [hd, hrun.dropWhile_eq hr.head_not_digit]
  | signed _ hs hd hrun =>
      rcases hs with rfl | rfl <;>
        simp [skipExponent, exponentSign, hd, hrun.dropWhile_eq hr.head_not_digit]

/-! ### Fractions and exponents after the integer part -/

theorem skipNumberTail_sound {cs r : List Char} (h : skipNumberTail cs = .ok r) :
    ∃ m, FracPart cs m ∧ ExpPart m r := by
  rcases cs with _ | ⟨c, rest⟩
  · rw [skipNumberTail.eq_4, Except.ok.injEq] at h
    subst h
    exact ⟨[], .none [], .none []⟩
  by_cases hc : c = '.'
  · subst hc
    rcases rest with _ | ⟨d, rest⟩
    · rw [skipNumberTail.eq_2] at h
      cases h
    rw [skipNumberTail.eq_1] at h
    split at h
    · rename_i hd
      have hrun := DigitRun.of_dropWhile rest
      split at h
      · rename_i c after hdrop
        rw [hdrop] at hrun
        split at h
        · exact ⟨c :: after, .some hd hrun, expPart_of_skipExponent ‹_› h⟩
        · rw [Except.ok.injEq] at h
          subst h
          exact ⟨c :: after, .some hd hrun, .none _⟩
      · rename_i hdrop
        rw [hdrop] at hrun
        rw [Except.ok.injEq] at h
        subst h
        exact ⟨[], .some hd hrun, .none []⟩
    · cases h
  · rw [skipNumberTail.eq_3 _ _ (fun _ _ h _ => hc h) (fun h _ => hc h)] at h
    split at h
    · exact ⟨c :: rest, .none _, expPart_of_skipExponent ‹_› h⟩
    · rw [Except.ok.injEq] at h
      subst h
      exact ⟨c :: rest, .none _, .none _⟩

/-- With no fraction and no exponent, a delimited text is left as it is. -/
theorem skipNumberTail_of_delimited {cs : List Char} (hr : Delimited cs) :
    skipNumberTail cs = .ok cs := by
  cases cs with
  | nil => rfl
  | cons c rest =>
      have hpoint := hr.ne_point
      rw [skipNumberTail.eq_3 _ _ (fun _ _ h _ => hpoint h) (fun h _ => hpoint h),
        if_neg hr.not_exponent]

theorem skipNumberTail_complete {cs m r : List Char} (hf : FracPart cs m) (he : ExpPart m r)
    (hr : Delimited r) : skipNumberTail cs = .ok r := by
  cases hf with
  | none =>
      cases he with
      | none => exact skipNumberTail_of_delimited hr
      | unsigned hexp hd hrun =>
          have hpoint := ne_point_of_exponent hexp
          rw [skipNumberTail.eq_3 _ _ (fun _ _ h _ => hpoint h) (fun h _ => hpoint h),
            if_pos hexp]
          exact skipExponent_of_expPart hexp (.unsigned hexp hd hrun) hr
      | signed hexp hs hd hrun =>
          have hpoint := ne_point_of_exponent hexp
          rw [skipNumberTail.eq_3 _ _ (fun _ _ h _ => hpoint h) (fun h _ => hpoint h),
            if_pos hexp]
          exact skipExponent_of_expPart hexp (.signed hexp hs hd hrun) hr
  | some hd hrun =>
      -- the fraction's digits end where the exponent, or what follows the number, starts
      have hnext : ∀ c ∈ m.head?, c.isDigit = false := by
        cases he with
        | none => exact hr.head_not_digit
        | unsigned hexp => rcases hexp with rfl | rfl <;> simp
        | signed hexp => rcases hexp with rfl | rfl <;> simp
      rw [skipNumberTail.eq_1, if_pos hd, hrun.dropWhile_eq hnext]
      cases he with
      | none =>
          cases hm : m with
          | nil => rfl
          | cons c rest =>
              rw [hm] at hr
              simp only [if_neg hr.not_exponent]
      | unsigned hexp hd' hrun' =>
          simp only [if_pos hexp]
          exact skipExponent_of_expPart hexp (.unsigned hexp hd' hrun') hr
      | signed hexp hs hd' hrun' =>
          simp only [if_pos hexp]
          exact skipExponent_of_expPart hexp (.signed hexp hs hd' hrun') hr

/-! ### Whole numbers -/

theorem unsigned_of_skipNumber {cs r : List Char} (h : skipNumber cs = .ok r) :
    Unsigned cs r := by
  rcases cs with _ | ⟨c, rest⟩
  · rw [skipNumber.eq_4] at h
    cases h
  by_cases hzero : c = '0'
  · subst hzero
    rcases rest with _ | ⟨d, rest⟩
    · rw [skipNumber.eq_2] at h
      obtain ⟨m, hf, he⟩ := skipNumberTail_sound h
      exact ⟨[], m, .zero, hf, he⟩
    rw [skipNumber.eq_1] at h
    split at h
    · cases h
    · obtain ⟨m, hf, he⟩ := skipNumberTail_sound h
      exact ⟨d :: rest, m, .zero, hf, he⟩
  · rw [skipNumber.eq_3 _ _ hzero] at h
    split at h
    · rename_i hd
      obtain ⟨m, hf, he⟩ := skipNumberTail_sound h
      exact ⟨_, m, .digits hd hzero (DigitRun.of_dropWhile rest), hf, he⟩
    · cases h

/-- After a fraction and an exponent, and what cannot extend them, comes no digit. -/
theorem head_not_digit_of_tail {cs m r : List Char} (hf : FracPart cs m) (he : ExpPart m r)
    (hr : Delimited r) : ∀ c ∈ cs.head?, c.isDigit = false := by
  cases hf with
  | some => simp
  | none =>
      cases he with
      | none => exact hr.head_not_digit
      | unsigned hexp => rcases hexp with rfl | rfl <;> simp
      | signed hexp => rcases hexp with rfl | rfl <;> simp

theorem skipNumber_of_unsigned {cs r : List Char} (h : Unsigned cs r) (hr : Delimited r) :
    skipNumber cs = .ok r := by
  obtain ⟨afterInt, afterFrac, hint, hf, he⟩ := h
  have hnext := head_not_digit_of_tail hf he hr
  cases hint with
  | zero =>
      cases afterInt with
      | nil =>
          rw [skipNumber.eq_2]
          exact skipNumberTail_complete hf he hr
      | cons c rest =>
          rw [skipNumber.eq_1, if_neg (by simpa using hnext c rfl)]
          exact skipNumberTail_complete hf he hr
  | digits hd hzero hrun =>
      rw [skipNumber.eq_3 _ _ hzero, if_pos hd, hrun.dropWhile_eq hnext]
      exact skipNumberTail_complete hf he hr

/-- A number's text after its sign, when what follows cannot extend it, is what `skipNumber`
takes. -/
theorem skipNumber_eq_ok_iff {cs r : List Char} (hr : Delimited r) :
    skipNumber cs = .ok r ↔ Unsigned cs r :=
  ⟨unsigned_of_skipNumber, fun h => skipNumber_of_unsigned h hr⟩

end AccessRequest.Json
