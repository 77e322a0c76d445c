import AccessRequest.Proofs.Json.Grammar
import AccessRequest.Json.Print

/-!
Reading a string literal is its grammar. The reader takes a string's body exactly when it is a
`StrRest`, and then gives the characters the body stands for and the text after the closing
quote; skipping a string takes exactly a `StrForm`. The printer's escaping of any characters,
quotes, backslashes and controls included, is a body that stands for those characters.
-/

namespace AccessRequest.Json

/-! ### Four hexadecimal digits -/

/-- A hexadecimal digit is one byte. -/
theorem utf8Size_of_hexDigitValue? {c : Char} {v : Nat} (h : hexDigitValue? c = some v) :
    c.utf8Size = 1 := by
  rw [Char.utf8Size_eq_one_iff]
  unfold hexDigitValue? at h
  simp only [Char.le_def] at h
  split at h
  · rename_i hd
    have := hd.2
    simp only [UInt32.le_iff_toNat_le] at this ⊢
    have h9 : ('9' : Char).val.toNat = 57 := rfl
    have h127 : (127 : UInt32).toNat = 127 := rfl
    omega
  · split at h
    · rename_i _ hd
      have := hd.2
      simp only [UInt32.le_iff_toNat_le] at this ⊢
      have hf : ('f' : Char).val.toNat = 102 := rfl
      have h127 : (127 : UInt32).toNat = 127 := rfl
      omega
    · split at h
      · rename_i _ _ hd
        have := hd.2
        simp only [UInt32.le_iff_toNat_le] at this ⊢
        have hF : ('F' : Char).val.toNat = 70 := rfl
        have h127 : (127 : UInt32).toNat = 127 := rfl
        omega
      · cases h

/-- Four characters with a hexadecimal value are four hexadecimal digits. -/
theorem hexDigits_of_hex4Value? {a b c d : Char} {n : Nat}
    (h : hex4Value? [a, b, c, d] = some n) :
    ∀ x ∈ [a, b, c, d], ∃ v, hexDigitValue? x = some v := by
  simp only [hex4Value?, Option.bind_eq_bind, Option.bind_eq_some_iff] at h
  obtain ⟨va, ha, vb, hb, vc, hc, vd, hd, -⟩ := h
  simp only [List.mem_cons, List.not_mem_nil, or_false]
  rintro x (rfl | rfl | rfl | rfl)
  all_goals exact ⟨_, ‹_›⟩

theorem readHex4_of_hex4Value? {a b c d : Char} {n : Nat} (h : hex4Value? [a, b, c, d] = some n)
    (r : List Char) : readHex4 (a :: b :: c :: d :: r) = .ok (n, r) := by
  have hdigits := hexDigits_of_hex4Value? h
  have hbytes : byteCount [a, b, c, d] = 4 := by
    obtain ⟨_, ha⟩ := hdigits a (by simp)
    obtain ⟨_, hb⟩ := hdigits b (by simp)
    obtain ⟨_, hc⟩ := hdigits c (by simp)
    obtain ⟨_, hd⟩ := hdigits d (by simp)
    simp [byteCount, utf8Size_of_hexDigitValue? ha, utf8Size_of_hexDigitValue? hb,
      utf8Size_of_hexDigitValue? hc, utf8Size_of_hexDigitValue? hd]
  simp [readHex4, hbytes, h]

theorem hex4Value?_eq_some {ds : List Char} {n : Nat} (h : hex4Value? ds = some n) :
    ∃ a b c d, ds = [a, b, c, d] := by
  match ds, h with
  | [a, b, c, d], _ => exact ⟨a, b, c, d, rfl⟩

theorem readHex4_eq_ok {cs r : List Char} {n : Nat} (h : readHex4 cs = .ok (n, r)) :
    ∃ a b c d, cs = a :: b :: c :: d :: r ∧ hex4Value? [a, b, c, d] = some n := by
  unfold readHex4 at h
  split at h
  · cases h
  · split at h
    · rename_i hv
      obtain ⟨a, b, c, d, hds⟩ := hex4Value?_eq_some hv
      simp only [Except.ok.injEq, Prod.mk.injEq] at h
      obtain ⟨rfl, rfl⟩ := h
      refine ⟨a, b, c, d, ?_, hds ▸ hv⟩
      rw [← List.take_append_drop 4 cs, hds]
      rfl
    · cases h

/-! ### Escapes -/

theorem not_trailing_of_leading {n : Nat} (h : isLeadingSurrogate n = true) :
    isTrailingSurrogate n = false := by
  simp only [isLeadingSurrogate, isTrailingSurrogate, Bool.and_eq_true, decide_eq_true_eq] at h ⊢
  simp only [Bool.and_eq_false_iff, decide_eq_false_iff_not, Nat.not_le]
  omega

theorem readEscape_of_shortEscape {e c : Char} (h : shortEscape e = some c) (r : List Char) :
    readEscape (e :: r) = .ok (c, r) := by
  unfold shortEscape at h
  split at h <;> cases h <;> rfl

/-- An escape reads as the character it stands for. -/
theorem readEscape_of_escape {cs after : List Char} {c : Char} (h : Escape cs c after) :
    readEscape cs = .ok (c, after) := by
  cases h with
  | short he => exact readEscape_of_shortEscape he _
  | unicode hn hlead htrail =>
      simp [readEscape, readUnicodeEscape, readHex4_of_hex4Value? hn, hlead, htrail]
  | pair hhi hlead hlo htrail =>
      simp [readEscape, readUnicodeEscape, readHex4_of_hex4Value? hhi, hlead,
        not_trailing_of_leading hlead, readHex4_of_hex4Value? hlo, htrail]

theorem escape_of_readUnicodeEscape {cs after : List Char} {c : Char}
    (h : readUnicodeEscape cs = .ok (c, after)) : Escape ('u' :: cs) c after := by
  unfold readUnicodeEscape at h
  split at h
  · cases h
  · rename_i n rest hx
    obtain ⟨a, b, c, d, rfl, hn⟩ := readHex4_eq_ok hx
    split at h
    · cases h
    · rename_i htrail
      split at h
      · rename_i hlead
        simp only [Except.ok.injEq, Prod.mk.injEq] at h
        obtain ⟨rfl, rfl⟩ := h
        exact .unicode hn (by simpa using hlead) (by simpa using htrail)
      · rename_i hlead
        split at h
        · rename_i after'
          split at h
          · cases h
          · rename_i lo rest2 hx2
            obtain ⟨a', b', c', d', rfl, hlo⟩ := readHex4_eq_ok hx2
            split at h
            · simp only [Except.ok.injEq, Prod.mk.injEq] at h
              obtain ⟨rfl, rfl⟩ := h
              exact .pair hn (by simpa using hlead) hlo ‹_›
            · cases h
        all_goals cases h

/-- What reads as an escape is one. -/
theorem escape_of_readEscape {cs after : List Char} {c : Char}
    (h : readEscape cs = .ok (c, after)) : Escape cs c after := by
  unfold readEscape at h
  split at h
  case h_10 => exact escape_of_readUnicodeEscape h
  all_goals cases h
  all_goals exact .short rfl

/-! ### String bodies -/

/-- A body the grammar describes reads as the characters it stands for. -/
theorem readStringBody_of_strRest {cs s r : List Char} (h : StrRest cs s r) (acc : List Char) :
    readStringBody acc cs = .ok (String.ofList (acc.reverse ++ s), r) := by
  induction h generalizing acc with
  | close => simp [readStringBody]
  | plain hc hq hb _ ih =>
      rw [readStringBody.eq_4 _ _ _ hq hb]
      simp [hc, ih]
  | escape he _ ih =>
      rw [readStringBody.eq_3]
      split
      · rename_i f hf
        rw [readEscape_of_escape he] at hf
        cases hf
      · rename_i c' after' hok
        rw [readEscape_of_escape he] at hok
        cases hok
        simp [ih]

/-- A body that reads is one the grammar describes. -/
theorem strRest_of_readStringBody {acc cs r : List Char} {str : String}
    (h : readStringBody acc cs = .ok (str, r)) :
    ∃ s, StrRest cs s r ∧ str = String.ofList (acc.reverse ++ s) := by
  fun_induction readStringBody acc cs with
  | case1 => cases h
  | case2 acc rest =>
      simp only [Except.ok.injEq, Prod.mk.injEq] at h
      obtain ⟨rfl, rfl⟩ := h
      exact ⟨[], .close, by simp⟩
  | case3 => cases h
  | case4 acc rest c after hesc _ ih =>
      obtain ⟨s, hs, rfl⟩ := ih h
      exact ⟨c :: s, .escape (escape_of_readEscape hesc) hs, by simp⟩
  | case5 => cases h
  | case6 acc c rest hq hb hc ih =>
      obtain ⟨s, hs, rfl⟩ := ih h
      exact ⟨c :: s, .plain (by simpa using hc) hq hb hs, by simp⟩

/-- Reading a string literal after its opening quote is its grammar. -/
theorem readString_eq_ok_iff {cs r : List Char} {str : String} :
    readString cs = .ok (str, r) ↔ StrRest cs str.toList r := by
  constructor
  · intro h
    obtain ⟨s, hs, rfl⟩ := strRest_of_readStringBody h
    simpa using hs
  · intro h
    have := readStringBody_of_strRest h []
    simpa [readString] using this

/-! ### Skipped strings -/

theorem skipEscape_eq_ok_iff {cs r : List Char} : skipEscape cs = .ok r ↔ EscapeForm cs r := by
  constructor
  · intro h
    unfold skipEscape at h
    split at h
    · cases h
    · rename_i c rest
      split at h
      · rename_i hshort
        simp only [Except.ok.injEq] at h
        subst h
        rcases hshort with rfl | rfl | rfl | rfl | rfl | rfl | rfl | rfl <;> exact .short rfl
      · split at h
        · subst c
          cases hx : readHex4 rest with
          | error f => simp [hx, Except.map] at h
          | ok p =>
              obtain ⟨n, r'⟩ := p
              simp only [hx, Except.map, Except.ok.injEq] at h
              subst h
              obtain ⟨a, b, c, d, rfl, hn⟩ := readHex4_eq_ok hx
              exact .unicode hn
        · cases h
  · intro h
    cases h with
    | short he =>
        unfold shortEscape at he
        split at he <;> cases he <;> simp [skipEscape]
    | unicode hn => simp [skipEscape, readHex4_of_hex4Value? hn, Except.map]

/-- Skipping a string after its opening quote is its grammar. -/
theorem skipString_eq_ok_iff {cs r : List Char} : skipString cs = .ok r ↔ StrForm cs r := by
  constructor
  · intro h
    fun_induction skipString cs with
    | case1 => cases h
    | case2 rest =>
        simp only [Except.ok.injEq] at h
        subst h
        exact .close
    | case3 => cases h
    | case4 rest after hesc _ ih => exact .escape (skipEscape_eq_ok_iff.mp hesc) (ih h)
    | case5 => cases h
    | case6 c rest hq hb hc ih => exact .plain (by simpa using hc) hq hb (ih h)
  · intro h
    induction h with
    | close => simp [skipString]
    | plain hc hq hb _ ih =>
        rw [skipString.eq_4 _ _ hq hb]
        simp [hc, ih]
    | escape he _ ih =>
        rw [skipString.eq_3]
        split
        · rename_i f hf
          rw [skipEscape_eq_ok_iff.mpr he] at hf
          cases hf
        · rename_i after' hok
          rw [skipEscape_eq_ok_iff.mpr he] at hok
          cases hok
          exact ih

/-! ### Printed strings -/

theorem hexDigitValue?_hexDigit {k : Nat} (hk : k < 16) : hexDigitValue? (hexDigit k) = some k := by
  have := (by decide : ∀ k : Fin 16, hexDigitValue? (hexDigit k) = some k) ⟨k, hk⟩
  simpa using this

/-- A control character written `\u00xx` reads back as itself. -/
theorem escape_control {c : Char} (hc : c.toNat < 0x20) (r : List Char) :
    Escape ('u' :: '0' :: '0' :: hexDigit (c.toNat / 16) :: hexDigit (c.toNat % 16) :: r) c r := by
  have hhi := hexDigitValue?_hexDigit (k := c.toNat / 16) (by omega)
  have hlo := hexDigitValue?_hexDigit (k := c.toNat % 16) (by omega)
  have hn : hex4Value? ['0', '0', hexDigit (c.toNat / 16), hexDigit (c.toNat % 16)] =
      some c.toNat := by
    simp only [hex4Value?, hhi, hlo]
    simp [hexDigitValue?]
    omega
  have := Escape.unicode (r := r) hn
    (by simp [isLeadingSurrogate]; omega) (by simp [isTrailingSurrogate]; omega)
  rwa [Char.ofNat_toNat] at this

/-- One printed character reads back as itself. -/
theorem strRest_escapeChar (c : Char) {t s r : List Char} (h : StrRest t s r) :
    StrRest (escapeChar c ++ t) (c :: s) r := by
  unfold escapeChar
  split
  · exact .escape (.short rfl) h
  · exact .escape (.short rfl) h
  · exact .escape (.short rfl) h
  · exact .escape (.short rfl) h
  · exact .escape (.short rfl) h
  · exact .escape (.short rfl) h
  · exact .escape (.short rfl) h
  · rename_i hq hb _ _ _ _ _
    split
    · exact .escape (escape_control ‹_› _) h
    · refine .plain ?_ hq hb h
      simp only [isControl, decide_eq_false_iff_not]
      omega

/-- Printed characters, then the closing quote, read back as those characters. -/
theorem strRest_escaped (s r : List Char) : StrRest (s.flatMap escapeChar ++ '"' :: r) s r := by
  induction s with
  | nil => exact .close
  | cons c rest ih =>
      rw [List.flatMap_cons, List.append_assoc]
      exact strRest_escapeChar c ih

end AccessRequest.Json
