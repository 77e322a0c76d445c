import AccessRequest.Proofs.Json.Strings
import AccessRequest.Proofs.Json.Numbers

/-!
Skipping a value is its grammar. What `skipValue` passes over, after blanks, is a well-formed
value (`Form .value`), with arrays and objects nested to any depth; and a well-formed value is
passed over whole when what follows it cannot extend it. Each step of the three skipping
functions is stated once below, on the text they leave; soundness follows the functions'
recursion and completeness the grammar's.
-/

namespace AccessRequest.Json

/-! ### The text a reader leaves -/

theorem Shorter.length_lt_of_map_val {cs r : List Char} {x : Except Fault (Shorter cs)}
    (h : x.map Subtype.val = .ok r) : r.length < cs.length := by
  cases x with
  | error f => cases h
  | ok r' =>
      cases h
      exact r'.property

theorem wordAt_map_val (ws : List Char) {cs rest : List Char} {c : Char}
    (h : skipBlank cs = c :: rest) : (wordAt ws h).map Subtype.val = expectWord ws rest := by
  unfold wordAt
  split <;> rename_i heq <;> exact heq.symm

theorem skipNumberAt_map_val (text : List Char) {cs : List Char} (h : text.length ≤ cs.length) :
    (skipNumberAt text h).map Subtype.val = skipNumber text := by
  unfold skipNumberAt
  split <;> rename_i heq <;> exact heq.symm

theorem skipStringAt_map_val (text : List Char) {cs : List Char} (h : text.length ≤ cs.length) :
    (skipStringAt text h).map Subtype.val = skipString text := by
  unfold skipStringAt
  split <;> rename_i heq <;> exact heq.symm

theorem expectWord_append (ws r : List Char) : expectWord ws (ws ++ r) = .ok r := by
  induction ws with
  | nil => rfl
  | cons w rest ih => simp [expectWord, ih]

/-! ### One step of skipping a value -/

section SkipValueSteps

variable {cs rest : List Char}

theorem skipValue_null (h : skipBlank cs = 'n' :: rest) :
    (skipValue cs).map Subtype.val = expectWord ['u', 'l', 'l'] rest := by
  rw [skipValue.eq_1]
  split <;> rename_i heq <;>
    simp only [h, List.cons.injEq, reduceCtorEq, true_and] at heq
  all_goals first
    | exact absurd heq.1 (by decide)
    | (obtain ⟨rfl, -⟩ := heq; contradiction)
    | (subst heq; exact wordAt_map_val _ _)

theorem skipValue_true (h : skipBlank cs = 't' :: rest) :
    (skipValue cs).map Subtype.val = expectWord ['r', 'u', 'e'] rest := by
  rw [skipValue.eq_1]
  split <;> rename_i heq <;>
    simp only [h, List.cons.injEq, reduceCtorEq, true_and] at heq
  all_goals first
    | exact absurd heq.1 (by decide)
    | (obtain ⟨rfl, -⟩ := heq; contradiction)
    | (subst heq; exact wordAt_map_val _ _)

theorem skipValue_false (h : skipBlank cs = 'f' :: rest) :
    (skipValue cs).map Subtype.val = expectWord ['a', 'l', 's', 'e'] rest := by
  rw [skipValue.eq_1]
  split <;> rename_i heq <;>
    simp only [h, List.cons.injEq, reduceCtorEq, true_and] at heq
  all_goals first
    | exact absurd heq.1 (by decide)
    | (obtain ⟨rfl, -⟩ := heq; contradiction)
    | (subst heq; exact wordAt_map_val _ _)

theorem skipValue_minus (h : skipBlank cs = '-' :: rest) :
    (skipValue cs).map Subtype.val = skipNumber rest := by
  rw [skipValue.eq_1]
  split <;> rename_i heq <;>
    simp only [h, List.cons.injEq, reduceCtorEq, true_and] at heq
  all_goals first
    | exact absurd heq.1 (by decide)
    | (obtain ⟨rfl, -⟩ := heq; contradiction)
    | (subst heq; exact skipNumberAt_map_val _ _)

theorem skipValue_quote (h : skipBlank cs = '"' :: rest) :
    (skipValue cs).map Subtype.val = skipString rest := by
  rw [skipValue.eq_1]
  split <;> rename_i heq <;>
    simp only [h, List.cons.injEq, reduceCtorEq, true_and] at heq
  all_goals first
    | exact absurd heq.1 (by decide)
    | (obtain ⟨rfl, -⟩ := heq; contradiction)
    | (subst heq; exact skipStringAt_map_val _ _)

theorem skipValue_bracket (h : skipBlank cs = '[' :: rest) :
    (skipValue cs).map Subtype.val = (skipElements rest true).map Subtype.val := by
  rw [skipValue.eq_1]
  split <;> rename_i heq <;>
    simp only [h, List.cons.injEq, reduceCtorEq, true_and] at heq
  all_goals first
    | exact absurd heq.1 (by decide)
    | (obtain ⟨rfl, -⟩ := heq; contradiction)
    | (subst heq; cases skipElements rest true <;> rfl)

theorem skipValue_brace (h : skipBlank cs = '{' :: rest) :
    (skipValue cs).map Subtype.val = (skipMembers rest true).map Subtype.val := by
  rw [skipValue.eq_1]
  split <;> rename_i heq <;>
    simp only [h, List.cons.injEq, reduceCtorEq, true_and] at heq
  all_goals first
    | exact absurd heq.1 (by decide)
    | (obtain ⟨rfl, -⟩ := heq; contradiction)
    | (subst heq; cases skipMembers rest true <;> rfl)

theorem ne_of_isDigit {c x : Char} (hc : c.isDigit = true) (hx : x.isDigit = false) : c ≠ x := by
  rintro rfl
  rw [hc] at hx
  cases hx

theorem skipValue_digit {c : Char} (h : skipBlank cs = c :: rest) (hc : c.isDigit = true) :
    (skipValue cs).map Subtype.val = skipNumber (c :: rest) := by
  rw [skipValue.eq_1]
  split <;> rename_i heq <;>
    simp only [h, List.cons.injEq, reduceCtorEq] at heq
  all_goals first
    | exact absurd heq.1 (ne_of_isDigit hc (by decide))
    | (obtain ⟨rfl, rfl⟩ := heq
       rw [if_pos hc]
       exact skipNumberAt_map_val _ _)

/-- What a value cannot start with gives no value. -/
theorem skipValue_other {c : Char} {r : List Char} (h : skipBlank cs = c :: rest)
    (hstart : c ≠ 'n' ∧ c ≠ 't' ∧ c ≠ 'f' ∧ c ≠ '-' ∧ c ≠ '"' ∧ c ≠ '[' ∧ c ≠ '{')
    (hc : c.isDigit = false) : (skipValue cs).map Subtype.val ≠ .ok r := by
  obtain ⟨hn, ht, hf, hm, hq, hb, hbr⟩ := hstart
  rw [skipValue.eq_1]
  split <;> rename_i heq <;>
    simp only [h, List.cons.injEq, reduceCtorEq] at heq
  all_goals first
    | exact absurd heq.1 ‹_›
    | (obtain ⟨rfl, rfl⟩ := heq
       rw [if_neg (by simp [hc])]
       simp [Except.map])

theorem skipValue_nil {r : List Char} (h : skipBlank cs = []) :
    (skipValue cs).map Subtype.val ≠ .ok r := by
  rw [skipValue.eq_1]
  split <;> rename_i heq <;> simp only [h, reduceCtorEq] at heq
  simp [Except.map]

end SkipValueSteps

/-! ### One step of skipping an array's elements -/

section SkipElementsSteps

variable {cs rest : List Char}

theorem skipElements_close (h : skipBlank cs = ']' :: rest) (first : Bool) :
    (skipElements cs first).map Subtype.val = .ok rest := by
  rw [skipElements.eq_1]
  split <;> rename_i heq <;>
    simp only [h, List.cons.injEq, reduceCtorEq, true_and] at heq
  all_goals first
    | exact absurd heq.1 (by decide)
    | (obtain ⟨rfl, -⟩ := heq; contradiction)
    | (subst heq; rfl)

theorem skipElements_next (h : skipBlank cs = ',' :: rest) :
    (skipElements cs false).map Subtype.val =
      ((skipValue rest).map Subtype.val).bind fun after =>
        (skipElements after false).map Subtype.val := by
  rw [skipElements.eq_1]
  split <;> rename_i heq <;>
    simp only [h, List.cons.injEq, reduceCtorEq, true_and] at heq
  all_goals first
    | exact absurd heq.1 (by decide)
    | (obtain ⟨rfl, -⟩ := heq; contradiction)
    | (subst heq
       simp only [Bool.false_eq_true, if_false]
       rcases skipValue rest with f | ⟨after, hafter⟩
       · rfl
       · dsimp only [Except.map, Except.bind]
         cases skipElements after false <;> rfl)

theorem skipElements_first {c : Char} (h : skipBlank cs = c :: rest) (hclose : c ≠ ']')
    (hcomma : c ≠ ',') :
    (skipElements cs true).map Subtype.val =
      ((skipValue (c :: rest)).map Subtype.val).bind fun after =>
        (skipElements after false).map Subtype.val := by
  rw [skipElements.eq_1]
  split <;> rename_i heq <;>
    simp only [h, List.cons.injEq, reduceCtorEq] at heq
  all_goals first
    | exact absurd heq.1 ‹_›
    | (obtain ⟨h1, h2⟩ := heq
       cases h1
       cases h2
       rw [if_pos rfl]
       rcases skipValue (c :: rest) with f | ⟨after, hafter⟩
       · rfl
       · dsimp only [Except.map, Except.bind]
         cases skipElements after false <;> rfl)

theorem skipElements_comma_first {r : List Char} (h : skipBlank cs = ',' :: rest) :
    (skipElements cs true).map Subtype.val ≠ .ok r := by
  rw [skipElements.eq_1]
  split <;> rename_i heq <;>
    simp only [h, List.cons.injEq, reduceCtorEq, true_and] at heq
  all_goals first
    | exact absurd heq.1 (by decide)
    | (obtain ⟨rfl, -⟩ := heq; contradiction)
    | simp [Except.map]

theorem skipElements_other {c : Char} {r : List Char} (h : skipBlank cs = c :: rest)
    (hclose : c ≠ ']') (hcomma : c ≠ ',') :
    (skipElements cs false).map Subtype.val ≠ .ok r := by
  rw [skipElements.eq_1]
  split <;> rename_i heq <;>
    simp only [h, List.cons.injEq, reduceCtorEq] at heq
  all_goals first
    | exact absurd heq.1 ‹_›
    | simp [Except.map]

theorem skipElements_nil {first : Bool} {r : List Char} (h : skipBlank cs = []) :
    (skipElements cs first).map Subtype.val ≠ .ok r := by
  rw [skipElements.eq_1]
  split <;> rename_i heq <;> simp only [h, reduceCtorEq] at heq
  simp [Except.map]

end SkipElementsSteps

/-! ### One step of skipping an object's members -/

section SkipMembersSteps

variable {cs rest : List Char}

theorem skipMembers_close (h : skipBlank cs = '}' :: rest) (first : Bool) :
    (skipMembers cs first).map Subtype.val = .ok rest := by
  rw [skipMembers.eq_1]
  split <;> rename_i heq <;>
    simp only [h, List.cons.injEq, reduceCtorEq, true_and] at heq
  all_goals first
    | (obtain ⟨rfl, -⟩ := heq; contradiction)
    | (subst heq; rfl)

/-- Where the key of a member starts: at the first character, or after a comma and blanks. -/
theorem keyText_true (c : Char) (rest : List Char) : keyText c rest true = c :: rest := by
  simp [keyText]

theorem keyText_comma (rest : List Char) : keyText ',' rest false = skipBlank rest := by
  simp [keyText]

theorem skipMembers_member {c : Char} {first : Bool} {keyRest afterKey valueText : List Char}
    (h : skipBlank cs = c :: rest) (hclose : c ≠ '}') (hsep : ¬ (c ≠ ',' ∧ !first))
    (hk : keyText c rest first = '"' :: keyRest) (hs : skipString keyRest = .ok afterKey)
    (hcolon : skipBlank afterKey = ':' :: valueText) :
    (skipMembers cs first).map Subtype.val =
      ((skipValue valueText).map Subtype.val).bind fun after =>
        (skipMembers after false).map Subtype.val := by
  rw [skipMembers.eq_1]
  split <;> rename_i heq <;>
    simp only [h, List.cons.injEq, reduceCtorEq] at heq
  all_goals first
    | exact absurd heq.1 hclose
    | skip
  obtain ⟨rfl, rfl⟩ := heq
  rw [if_neg hsep]
  split <;> rename_i hk' <;> rw [hk] at hk' <;>
    simp only [List.cons.injEq, reduceCtorEq, true_and] at hk'
  all_goals first
    | exact absurd hk'.1.symm ‹_›
    | skip
  subst hk'
  split <;> rename_i hs' <;> rw [hs] at hs' <;> simp only [reduceCtorEq, Except.ok.injEq] at hs'
  subst hs'
  split <;> rename_i hc' <;> rw [hcolon] at hc' <;>
    simp only [List.cons.injEq, reduceCtorEq, true_and] at hc'
  all_goals first
    | (obtain ⟨rfl, -⟩ := hc'; contradiction)
    | skip
  subst hc'
  rcases skipValue valueText with f | ⟨after, hafter⟩
  · rfl
  · dsimp only [Except.map, Except.bind]
    cases skipMembers after false <;> rfl

/-- A member that skips: the closing brace, or a key, a colon and a value after the separator
the position asks for. -/
theorem skipMembers_ok_cases {first : Bool} {r : List Char}
    (h : (skipMembers cs first).map Subtype.val = .ok r) :
    skipBlank cs = '}' :: r ∨
      ∃ c rest keyRest afterKey valueText, skipBlank cs = c :: rest ∧ c ≠ '}' ∧
        ¬ (c ≠ ',' ∧ !first) ∧ keyText c rest first = '"' :: keyRest ∧
        skipString keyRest = .ok afterKey ∧ skipBlank afterKey = ':' :: valueText ∧
        (((skipValue valueText).map Subtype.val).bind fun after =>
          (skipMembers after false).map Subtype.val) = .ok r := by
  rw [skipMembers.eq_1] at h
  split at h
  · cases h
  · rename_i rest heq
    cases h
    exact .inl heq
  · rename_i c rest hclose heq
    split at h
    · cases h
    · rename_i hsep
      split at h
      · rename_i keyRest hk
        split at h
        · cases h
        · rename_i afterKey hs
          split at h
          · rename_i valueText hc
            refine .inr ⟨c, rest, keyRest, afterKey, valueText, heq, hclose, hsep, hk, hs, hc, ?_⟩
            rw [← h]
            rcases skipValue valueText with f | ⟨after, hafter⟩
            · rfl
            · dsimp only [Except.map, Except.bind]
              cases skipMembers after false <;> rfl
          · cases h
          · cases h
      · cases h
      · cases h

end SkipMembersSteps

/-! ### Heads of values and of what follows them -/

theorem expectWord_eq_ok {ws cs r : List Char} (h : expectWord ws cs = .ok r) : cs = ws ++ r := by
  induction ws generalizing cs with
  | nil =>
      cases h
      rfl
  | cons w ws ih =>
      cases cs with
      | nil => cases h
      | cons c cs =>
          simp only [expectWord] at h
          split at h
          · rename_i hc
            rw [hc, ih h]
            rfl
          · cases h

theorem bind_eq_ok {α β : Type} {x : Except Fault α} {k : α → Except Fault β} {r : β}
    (h : x.bind k = .ok r) : ∃ a, x = .ok a ∧ k a = .ok r := by
  cases x with
  | error f => cases h
  | ok a => exact ⟨a, rfl, h⟩

/-- The first character of a value decides its kind, as in `skipValue`. -/
theorem valueHead_cases (c : Char) :
    c = 'n' ∨ c = 't' ∨ c = 'f' ∨ c = '-' ∨ c = '"' ∨ c = '[' ∨ c = '{' ∨ c.isDigit = true ∨
      ((c ≠ 'n' ∧ c ≠ 't' ∧ c ≠ 'f' ∧ c ≠ '-' ∧ c ≠ '"' ∧ c ≠ '[' ∧ c ≠ '{') ∧
        c.isDigit = false) := by
  grind

theorem isBlank_of_isDigit {c : Char} (hd : c.isDigit = true) : isBlank c = false := by
  cases hb : isBlank c
  · rfl
  · simp only [isBlank, Bool.or_eq_true, decide_eq_true_eq] at hb
    rcases hb with ((rfl | rfl) | rfl) | rfl <;> exact absurd hd (by decide)

theorem isBlank_head_of_skipBlank {cs rest : List Char} {c : Char}
    (h : skipBlank cs = c :: rest) : isBlank c = false := by
  induction cs with
  | nil => cases h
  | cons d ds ih =>
      unfold skipBlank at h
      split at h
      · exact ih h
      · rename_i hd
        cases h
        simpa using hd

@[simp] theorem skipBlank_skipBlank (cs : List Char) : skipBlank (skipBlank cs) = skipBlank cs := by
  cases h : skipBlank cs with
  | nil => rfl
  | cons c rest => exact (Blank.done _).skipBlank_eq_cons (isBlank_head_of_skipBlank h)

theorem Unsigned.head {cs r : List Char} (h : Unsigned cs r) :
    ∃ d rest, cs = d :: rest ∧ d.isDigit = true := by
  obtain ⟨_, _, hint, -⟩ := h
  cases hint with
  | zero => exact ⟨_, _, rfl, by decide⟩
  | digits hd => exact ⟨_, _, rfl, hd⟩

/-- A value starts with no blank, comma or closing bracket. -/
theorem Form.value_head {v r : List Char} (h : Form .value v r) :
    ∃ c rest, v = c :: rest ∧ isBlank c = false ∧ c ≠ ']' ∧ c ≠ ',' := by
  cases h with
  | number hu =>
      obtain ⟨d, rest, rfl, hd⟩ := hu.head
      refine ⟨d, rest, rfl, isBlank_of_isDigit hd, ?_, ?_⟩ <;>
        (rintro rfl; exact absurd hd (by decide))
  | _ => exact ⟨_, _, rfl, by decide, by decide, by decide⟩

theorem Blank.skipBlank_eq_value {cs v r : List Char} (hb : Blank cs v) (hv : Form .value v r) :
    skipBlank cs = v := by
  obtain ⟨c, rest, rfl, hc, -⟩ := hv.value_head
  exact hb.skipBlank_eq_cons hc

theorem Blank.delimited {cs r : List Char} {d : Char} (h : Blank cs (d :: r))
    (hd : d = ',' ∨ d = ']' ∨ d = '}') : Delimited cs := by
  cases h with
  | done => exact .inr hd
  | blank hb => exact .inl hb

/-- What follows an array's element or an object's member cannot extend a number. -/
theorem Form.delimited {p : Part} {cs r : List Char} (h : Form p cs r) (hp : p ≠ .value) :
    Delimited cs := by
  cases h with
  | itemsEnd hb => exact hb.delimited (by simp)
  | itemsNext hb => exact hb.delimited (by simp)
  | fieldsEnd hb => exact hb.delimited (by simp)
  | fieldsNext hb => exact hb.delimited (by simp)
  | _ => exact absurd rfl hp

/-! ### Soundness: what is skipped is well formed -/

mutual

/-- What `skipValue` skips, after blanks, is a value. -/
theorem form_of_skipValue {cs r : List Char} (h : (skipValue cs).map Subtype.val = .ok r) :
    Form .value (skipBlank cs) r := by
  rcases hb : skipBlank cs with _ | ⟨c, rest⟩
  · exact absurd h (skipValue_nil hb)
  have hlen := skipBlank_cons_length hb
  rcases valueHead_cases c with rfl | rfl | rfl | rfl | rfl | rfl | rfl | hd | ⟨hstart, hd⟩
  · rw [skipValue_null hb] at h
    rw [expectWord_eq_ok h]
    exact .nullWord
  · rw [skipValue_true hb] at h
    rw [expectWord_eq_ok h]
    exact .trueWord
  · rw [skipValue_false hb] at h
    rw [expectWord_eq_ok h]
    exact .falseWord
  · rw [skipValue_minus hb] at h
    exact .negative (unsigned_of_skipNumber h)
  · rw [skipValue_quote hb] at h
    exact .string (skipString_eq_ok_iff.mp h)
  · rw [skipValue_bracket hb] at h
    exact form_of_skipElements_true h
  · rw [skipValue_brace hb] at h
    exact form_of_skipMembers_true h
  · rw [skipValue_digit hb hd] at h
    exact .number (unsigned_of_skipNumber h)
  · exact absurd h (skipValue_other hb hstart hd)
termination_by 2 * cs.length + 1
decreasing_by all_goals omega

/-- The elements of an array after its opening bracket, as `skipElements` skips them. -/
theorem form_of_skipElements_true {cs r : List Char}
    (h : (skipElements cs true).map Subtype.val = .ok r) : Form .value ('[' :: cs) r := by
  rcases hb : skipBlank cs with _ | ⟨c, rest⟩
  · exact absurd h (skipElements_nil hb)
  by_cases hclose : c = ']'
  · subst hclose
    rw [skipElements_close hb, Except.ok.injEq] at h
    subst h
    exact .emptyArray (Blank.of_skipBlank_eq hb)
  by_cases hcomma : c = ','
  · subst hcomma
    exact absurd h (skipElements_comma_first hb)
  rw [skipElements_first hb hclose hcomma] at h
  obtain ⟨after, hv, hi⟩ := bind_eq_ok h
  have hlen := skipBlank_cons_length_le hb
  have hafter := Shorter.length_lt_of_map_val hv
  -- the first element starts where the blanks end, so skipping blanks again leaves it as it is
  have hself : skipBlank (c :: rest) = c :: rest := by rw [← hb, skipBlank_skipBlank]
  have hfirst := form_of_skipValue hv
  rw [hself] at hfirst
  exact .array (Blank.of_skipBlank_eq hb) hfirst (items_of_skipElements hi)
termination_by 2 * cs.length + 2
decreasing_by all_goals simp only [List.length_cons] at *; omega

/-- The elements of an array after one of them, as `skipElements` skips them. -/
theorem items_of_skipElements {cs r : List Char}
    (h : (skipElements cs false).map Subtype.val = .ok r) : Form .items cs r := by
  rcases hb : skipBlank cs with _ | ⟨c, rest⟩
  · exact absurd h (skipElements_nil hb)
  by_cases hclose : c = ']'
  · subst hclose
    rw [skipElements_close hb, Except.ok.injEq] at h
    subst h
    exact .itemsEnd (Blank.of_skipBlank_eq hb)
  by_cases hcomma : c = ','
  · subst hcomma
    rw [skipElements_next hb] at h
    obtain ⟨after, hv, hi⟩ := bind_eq_ok h
    have hlen := skipBlank_cons_length hb
    have hafter := Shorter.length_lt_of_map_val hv
    exact .itemsNext (Blank.of_skipBlank_eq hb) (Blank.skipBlank_self rest) (form_of_skipValue hv)
      (items_of_skipElements hi)
  exact absurd h (skipElements_other hb hclose hcomma)
termination_by 2 * cs.length + 2
decreasing_by all_goals omega

/-- The members of an object after its opening brace, as `skipMembers` skips them. -/
theorem form_of_skipMembers_true {cs r : List Char}
    (h : (skipMembers cs true).map Subtype.val = .ok r) : Form .value ('{' :: cs) r := by
  rcases skipMembers_ok_cases h with hb | ⟨c, rest, keyRest, afterKey, valueText, hb, -, -, hk, hs,
    hcolon, hmember⟩
  · exact .emptyObject (Blank.of_skipBlank_eq hb)
  rw [keyText_true] at hk
  obtain ⟨rfl, rfl⟩ := List.cons.inj hk
  obtain ⟨after, hv, hf⟩ := bind_eq_ok hmember
  have hlen := skippedValueText_length_lt hb (keyText_true _ _ ▸ hk) hs hcolon
  have hafter := Shorter.length_lt_of_map_val hv
  exact .object (Blank.of_skipBlank_eq hb) (skipString_eq_ok_iff.mp hs)
    (Blank.of_skipBlank_eq hcolon) (Blank.skipBlank_self valueText) (form_of_skipValue hv)
    (fields_of_skipMembers hf)
termination_by 2 * cs.length + 2
decreasing_by all_goals omega

/-- The members of an object after one of them, as `skipMembers` skips them. -/
theorem fields_of_skipMembers {cs r : List Char}
    (h : (skipMembers cs false).map Subtype.val = .ok r) : Form .fields cs r := by
  rcases skipMembers_ok_cases h with hb | ⟨c, rest, keyRest, afterKey, valueText, hb, -, hsep, hk,
    hs, hcolon, hmember⟩
  · exact .fieldsEnd (Blank.of_skipBlank_eq hb)
  -- after a member, only a comma may come before the next key
  have hcomma : c = ',' := by simpa using hsep
  subst hcomma
  rw [keyText_comma] at hk
  obtain ⟨after, hv, hf⟩ := bind_eq_ok hmember
  have hlen := skippedValueText_length_lt hb (by rwa [keyText_comma]) hs hcolon
  have hafter := Shorter.length_lt_of_map_val hv
  exact .fieldsNext (Blank.of_skipBlank_eq hb) (Blank.of_skipBlank_eq hk)
    (skipString_eq_ok_iff.mp hs) (Blank.of_skipBlank_eq hcolon) (Blank.skipBlank_self valueText)
    (form_of_skipValue hv) (fields_of_skipMembers hf)
termination_by 2 * cs.length + 2
decreasing_by all_goals omega

end

/-! ### Completeness: what is well formed is skipped -/

/-- What skipping does after each part of well-formed text: a value is skipped from any text
that reaches it through blanks, when what follows it cannot extend it. -/
def Skips : Part → List Char → List Char → Prop
  | .value, v, r => Delimited r → ∀ cs, skipBlank cs = v → (skipValue cs).map Subtype.val = .ok r
  | .items, cs, r => (skipElements cs false).map Subtype.val = .ok r
  | .fields, cs, r => (skipMembers cs false).map Subtype.val = .ok r

theorem Form.skips {p : Part} {cs r : List Char} (h : Form p cs r) : Skips p cs r := by
  induction h with
  | nullWord =>
      intro _ cs hcs
      rw [skipValue_null hcs]
      exact expectWord_append ['u', 'l', 'l'] _
  | trueWord =>
      intro _ cs hcs
      rw [skipValue_true hcs]
      exact expectWord_append ['r', 'u', 'e'] _
  | falseWord =>
      intro _ cs hcs
      rw [skipValue_false hcs]
      exact expectWord_append ['a', 'l', 's', 'e'] _
  | number hu =>
      intro hr cs hcs
      obtain ⟨d, rest, rfl, hd⟩ := hu.head
      rw [skipValue_digit hcs hd]
      exact skipNumber_of_unsigned hu hr
  | negative hu =>
      intro hr cs hcs
      rw [skipValue_minus hcs]
      exact skipNumber_of_unsigned hu hr
  | string hs =>
      intro _ cs hcs
      rw [skipValue_quote hcs]
      exact skipString_eq_ok_iff.mpr hs
  | emptyArray hb =>
      intro _ cs hcs
      rw [skipValue_bracket hcs]
      exact skipElements_close (hb.skipBlank_eq_cons (by decide)) true
  | array hb hv hi ihv ihi =>
      intro _ cs hcs
      obtain ⟨c, rest, rfl, hblank, hclose, hcomma⟩ := hv.value_head
      have hself : skipBlank (c :: rest) = c :: rest := (Blank.done _).skipBlank_eq_cons hblank
      rw [skipValue_bracket hcs, skipElements_first (hb.skipBlank_eq_cons hblank) hclose hcomma,
        ihv (hi.delimited (by simp)) _ hself]
      exact ihi
  | emptyObject hb =>
      intro _ cs hcs
      rw [skipValue_brace hcs]
      exact skipMembers_close (hb.skipBlank_eq_cons (by decide)) true
  | object hb hk hc hcb hv hf ihv ihf =>
      intro _ cs hcs
      rw [skipValue_brace hcs, skipMembers_member (hb.skipBlank_eq_cons (by decide)) (by decide)
        (by decide) (keyText_true _ _) (skipString_eq_ok_iff.mpr hk)
        (hc.skipBlank_eq_cons (by decide)), ihv (hf.delimited (by simp)) _ (hcb.skipBlank_eq_value hv)]
      exact ihf
  | itemsEnd hb => exact skipElements_close (hb.skipBlank_eq_cons (by decide)) false
  | itemsNext hb hb' hv hi ihv ihi =>
      rw [Skips]
      rw [skipElements_next (hb.skipBlank_eq_cons (by decide)),
        ihv (hi.delimited (by simp)) _ (hb'.skipBlank_eq_value hv)]
      exact ihi
  | fieldsEnd hb => exact skipMembers_close (hb.skipBlank_eq_cons (by decide)) false
  | fieldsNext hb hb' hk hc hcb hv hf ihv ihf =>
      have hkey : keyText ',' _ false = _ := (keyText_comma _).trans (hb'.skipBlank_eq_cons (by decide))
      rw [Skips]
      rw [skipMembers_member (hb.skipBlank_eq_cons (by decide)) (by decide) (by decide) hkey
        (skipString_eq_ok_iff.mpr hk) (hc.skipBlank_eq_cons (by decide)),
        ihv (hf.delimited (by simp)) _ (hcb.skipBlank_eq_value hv)]
      exact ihf

/-- Skipping a value, when what follows it cannot extend it, is reading past blanks and a
well-formed value. -/
theorem skipValue_eq_ok_iff {cs r : List Char} (hr : Delimited r) :
    (skipValue cs).map Subtype.val = .ok r ↔ ∃ v, Blank cs v ∧ Form .value v r := by
  constructor
  · intro h
    exact ⟨_, Blank.skipBlank_self cs, form_of_skipValue h⟩
  · rintro ⟨v, hb, hv⟩
    exact hv.skips hr cs (hb.skipBlank_eq_value hv)

/-- A whole text that `skipValue` passes over is a value between blanks: the form in which a run
of the skipping functions on a given text settles it. -/
theorem form_of_skipValue_toOption {cs : List Char}
    (h : ((skipValue cs).map Subtype.val).toOption = some []) :
    ∃ v, Blank cs v ∧ Form .value v [] := by
  refine (skipValue_eq_ok_iff (show Delimited [] from trivial)).mp ?_
  revert h
  cases (skipValue cs).map Subtype.val with
  | error f => intro h; cases h
  | ok r => intro h; cases h; rfl

end AccessRequest.Json
