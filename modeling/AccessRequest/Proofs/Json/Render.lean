import AccessRequest.Proofs.Json.Canonical

/-!
Printed values read back. The compact text of a canonical value with integers only, nested within
the reader's room, is read as that very value: a string's escapes decode to its characters, an
integer's decimal digits gather into the same significand without overflow, and an object's
members, printed in ascending key order, are built back as they stand.
-/

namespace AccessRequest.Json

/-! ### Decimal integers -/

section Integers

variable {positive : Bool}

theorem le_ofDigitChars (ds : List Char) (acc : Nat) : acc ≤ Nat.ofDigitChars 10 ds acc := by
  rw [Nat.ofDigitChars_eq_ofDigitChars_zero]
  calc acc ≤ 10 ^ ds.length * acc := Nat.le_mul_of_pos_left acc (Nat.pow_pos (by decide))
    _ ≤ _ := Nat.le_add_right _ _

/-- Digits whose value fits are gathered into the significand whole. -/
theorem readSignificand_digits {ds : List Char} {acc : Nat} (r : List Char)
    (hds : ∀ d ∈ ds, d.isDigit = true) (hfit : Nat.ofDigitChars 10 ds acc ≤ maxU64) :
    readSignificand positive acc (ds ++ r) =
      readSignificand positive (Nat.ofDigitChars 10 ds acc) r := by
  induction ds generalizing acc with
  | nil => rfl
  | cons d ds ih =>
      have hd := hds d List.mem_cons_self
      have hnext : acc * 10 + digitValue d = 10 * acc + (d.toNat - '0'.toNat) := by
        unfold digitValue
        omega
      rw [Nat.ofDigitChars_cons, ← hnext] at hfit ⊢
      -- no prefix of the digits overflows, since their value only grows
      have hfits : ¬ acc * 10 + digitValue d > maxU64 :=
        Nat.not_lt.mpr (Nat.le_trans (le_ofDigitChars ds _) hfit)
      simp only [List.cons_append, readSignificand, hd, if_true, if_neg hfits]
      exact ih (fun d' hd' => hds d' (List.mem_cons_of_mem d hd')) hfit

theorem readSignificand_end {v : Nat} {r : List Char} (hr : ∀ c ∈ r.head?, c.isDigit = false) :
    readSignificand positive v r = readNumberTail positive v r := by
  cases r with
  | nil => rfl
  | cons c rest =>
      have hc : c.isDigit = false := hr c rfl
      simp [readSignificand, hc]

/-- A whole number ends where its text is delimited. -/
theorem readNumberTail_delimited {v : Nat} {r : List Char} (hr : Delimited r) :
    readNumberTail positive v r = .ok (readNumberTail.wholeNumber positive v, r) := by
  cases r with
  | nil => rfl
  | cons c rest =>
      rw [readNumberTail.eq_2 _ _ _ _ hr.ne_point, if_neg hr.not_exponent]

/-- The leading decimal digit of a positive number is not zero. -/
theorem toDigits_head_ne_zero : ∀ {m : Nat}, 0 < m → ∀ {c : Char} {ds : List Char},
    Nat.toDigits 10 m = c :: ds → c ≠ '0'
  | m, hm, c, ds, h => by
      rw [Nat.toDigits_eq_if (by decide)] at h
      split at h
      · rw [(List.cons.inj h).1.symm, Ne, Nat.digitChar_eq_zero]
        omega
      · rename_i hge
        obtain ⟨c', ds', h'⟩ :=
          List.exists_cons_of_ne_nil (Nat.toDigits_ne_nil (n := m / 10) (b := 10))
        rw [h', List.cons_append] at h
        rw [← (List.cons.inj h).1]
        exact toDigits_head_ne_zero (Nat.div_pos (by omega) (by decide)) h'
termination_by m => m
decreasing_by omega

/-- The decimal digits of an integer that fits 64 bits read back as that integer. -/
theorem readNumber_toDigits {m : Nat} (hm : m ≤ maxU64) {r : List Char} (hr : Delimited r) :
    readNumber positive (Nat.toDigits 10 m ++ r) =
      .ok (readNumberTail.wholeNumber positive m, r) := by
  obtain ⟨c, ds, hdigits⟩ := List.exists_cons_of_ne_nil (Nat.toDigits_ne_nil (n := m) (b := 10))
  have hall : ∀ d ∈ c :: ds, d.isDigit = true := fun d hd =>
    Nat.isDigit_of_mem_toDigits (by decide) (by decide) (hdigits ▸ hd)
  have hvalue : Nat.ofDigitChars 10 (c :: ds) 0 = m := hdigits ▸ Nat.ofDigitChars_ten_toDigits
  rw [hdigits, List.cons_append]
  rcases Nat.eq_zero_or_pos m with rfl | hpos
  · -- zero is the single digit `0`
    rw [Nat.toDigits_zero] at hdigits
    obtain ⟨rfl, rfl⟩ := List.cons.inj hdigits
    cases r with
    | nil => exact readNumberTail_delimited hr
    | cons d rest =>
        have hd : d.isDigit = false := hr.head_not_digit d rfl
        rw [List.nil_append, readNumber.eq_2, if_neg (by simp [hd])]
        exact readNumberTail_delimited hr
  · -- any other integer starts with a digit from `1` to `9`
    have hc := toDigits_head_ne_zero hpos hdigits
    have hfit : Nat.ofDigitChars 10 ds (digitValue c) ≤ maxU64 := by
      rw [← hvalue, Nat.ofDigitChars_cons] at hm
      unfold digitValue
      simpa using hm
    rw [readNumber.eq_4 _ _ _ hc, if_pos (hall c List.mem_cons_self),
      readSignificand_digits r (fun d hd => hall d (List.mem_cons_of_mem c hd)) hfit,
      readSignificand_end hr.head_not_digit, readNumberTail_delimited hr]
    congr
    rw [← hvalue, Nat.ofDigitChars_cons]
    unfold digitValue
    simp

end Integers

/-! ### Printed text -/

/-- The text of an object's member, `"key":value`. -/
def memberText (m : String × Value) : List Char := (quote m.1).toList ++ ':' :: m.2.render.toList

theorem renderItems_cons (x : Value) (rest : List Value) :
    (renderItems (x :: rest)).toList =
      x.render.toList ++ rest.flatMap fun w => ',' :: w.render.toList := by
  induction rest generalizing x with
  | nil => simp [renderItems]
  | cons w rest ih => simp [renderItems, ih]

theorem renderMembers_cons (m : String × Value) (rest : List (String × Value)) :
    (renderMembers (m :: rest)).toList =
      memberText m ++ rest.flatMap fun m' => ',' :: memberText m' := by
  induction rest generalizing m with
  | nil => simp [renderMembers, memberText]
  | cons m' rest ih => simp [renderMembers, memberText, ih]

/-- After an element or member come a comma or the closing bracket or brace. -/
theorem delimited_flatMap_comma {α : Type} (g : α → List Char) (rest : List α) {c : Char}
    (hc : c = ']' ∨ c = '}') (r : List Char) :
    Delimited ((rest.flatMap fun a => ',' :: g a) ++ c :: r) := by
  cases rest with
  | nil => simp [Delimited, hc]
  | cons a rest => simp [Delimited]

/-! ### Printed values read back -/

section Printed

variable {room : Nat} {r : List Char}

theorem valueText_string (s : String) :
    ValueText .value room ((Value.string s).render.toList ++ r) (.string s) r := by
  have htext : (Value.string s).render.toList ++ r =
      '"' :: (s.toList.flatMap escapeChar ++ '"' :: r) := by
    simp [Value.render, quote]
  rw [htext]
  exact .string (strRest_escaped s.toList r)

/-- An integer, unsigned or negative, is read back from its decimal text. -/
theorem valueText_number {n : Number} (ho : (Value.number n).Ordered)
    (hint : (Value.number n).isFloat = false) (hr : Delimited r) :
    ValueText .value room ((Value.number n).render.toList ++ r) (.number n) r := by
  cases n with
  | nat u =>
      have hu : u.toNat ≤ maxU64 := by
        have := u.toNat_lt
        simp only [maxU64, Nat.pow_eq] at this ⊢
        omega
      have hwhole : readNumberTail.wholeNumber true u.toNat = .nat u := by
        simp [readNumberTail.wholeNumber]
      have hread : readNumber true (Nat.toDigits 10 u.toNat ++ r) = .ok (.nat u, r) :=
        hwhole ▸ readNumber_toDigits hu hr
      obtain ⟨c, ds, hdigits⟩ :=
        List.exists_cons_of_ne_nil (Nat.toDigits_ne_nil (n := u.toNat) (b := 10))
      rw [hdigits, List.cons_append] at hread
      have htext : (Value.number (.nat u)).render.toList ++ r = c :: (ds ++ r) := by
        simp [Value.render, Number.render, hdigits]
      rw [htext]
      exact .number (Nat.isDigit_of_mem_toDigits (by decide) (by decide)
        (hdigits ▸ List.mem_cons_self)) hread
  | neg i =>
      have hneg : i.toInt < 0 := ho
      have hlow := i.le_toInt
      have hm : (-i.toInt).toNat ≤ maxU64 := by
        simp only [maxU64, Nat.pow_eq]
        omega
      -- the digits of `-i` are a significand from `1` to `2 ^ 63`, which is `i` again
      have hwhole : readNumberTail.wholeNumber false (-i.toInt).toNat = .neg i := by
        have hback : -(((-i.toInt).toNat : Nat) : Int) = i.toInt := by omega
        have hrange : 0 < (-i.toInt).toNat ∧ (-i.toInt).toNat ≤ Nat.pow 2 63 := by
          simp only [Nat.pow_eq]
          omega
        simp only [readNumberTail.wholeNumber, Bool.false_eq_true, if_false, if_pos hrange, hback,
          Int64.ofInt_toInt]
      have hread : readNumber false (Nat.toDigits 10 (-i.toInt).toNat ++ r) = .ok (.neg i, r) :=
        hwhole ▸ readNumber_toDigits hm hr
      have htext : (Value.number (.neg i)).render.toList ++ r =
          '-' :: (Nat.toDigits 10 (-i.toInt).toNat ++ r) := by
        simp [Value.render, Number.render, Decimal.intText, hneg]
      rw [htext]
      exact .negative hread
  | float f => cases hint

/-- A member printed after its separator is read as its key and value, before the members after
it. -/
theorem ValueText.printedMember {first : Bool} {cs after : List Char} {k : String} {v : Value}
    {pairs : List (String × Value)} (hlead : KeyLead first cs (memberText (k, v) ++ after))
    (hv : ValueText .value room (v.render.toList ++ after) v after)
    (hrest : ValueText (.fields false) room after pairs r) :
    ValueText (.fields first) room cs ((k, v) :: pairs) r := by
  have htext : memberText (k, v) ++ after =
      '"' :: (k.toList.flatMap escapeChar ++ '"' :: ':' :: (v.render.toList ++ after)) := by
    simp [memberText, quote]
  rw [htext] at hlead
  exact .fieldsNext hlead (strRest_escaped k.toList _) (.done _) (.done _) hv hrest

/-- The children of an array that fits the room fit one level less. -/
theorem fits_of_array {items : List Value} (hc : (Value.array items).Canonical)
    (hf : (Value.array items).FloatFree) (hd : (Value.array items).depth < room) :
    1 < room ∧ ∀ x ∈ items, x.Canonical ∧ x.FloatFree ∧ x.depth < room - 1 := by
  have hone : 1 ≤ (Value.array items).depth := Nat.le_add_left 1 _
  refine ⟨by omega, fun x hx => ⟨Value.Everywhere.of_array hc x hx,
    Value.Everywhere.of_array hf x hx, ?_⟩⟩
  have := Value.depth_lt_of_mem_array hx
  omega

/-- The members of an object that fits the room fit one level less, and their keys ascend. -/
theorem fits_of_object {ms : Members} (hc : (Value.object ms).Canonical)
    (hf : (Value.object ms).FloatFree) (hd : (Value.object ms).depth < room) :
    1 < room ∧ (ms.Pairwise fun a b => a.1 < b.1) ∧
      ∀ m ∈ ms, m.2.Canonical ∧ m.2.FloatFree ∧ m.2.depth < room - 1 := by
  have hone : 1 ≤ (Value.object ms).depth := Nat.le_add_left 1 _
  refine ⟨by omega, Value.Everywhere.top hc, fun m hm => ⟨Value.Everywhere.of_object hc m hm,
    Value.Everywhere.of_object hf m hm, ?_⟩⟩
  have := Value.depth_lt_of_mem_object hm
  omega

mutual

/-- A canonical value with integers only, nested within the room, is read back from its text
when what follows cannot extend it. -/
theorem valueText_render : ∀ (x : Value) {room : Nat} {r : List Char}, x.Canonical →
    x.FloatFree → x.depth < room → Delimited r →
      ValueText .value room (x.render.toList ++ r) x r
  | .null, _, _, _, _, _, _ => by simpa [Value.render] using ValueText.nullWord
  | .bool true, _, _, _, _, _, _ => by simpa [Value.render] using ValueText.trueWord
  | .bool false, _, _, _, _, _, _ => by simpa [Value.render] using ValueText.falseWord
  | .number _, _, _, hc, hf, _, hr =>
      valueText_number (Value.Everywhere.top hc) (Value.Everywhere.top hf) hr
  | .string s, _, _, _, _, _, _ => valueText_string s
  | .array items, room, r, hc, hf, hd, _ => by
      obtain ⟨hroom, hitems⟩ := fits_of_array hc hf hd
      have htext : (Value.array items).render.toList ++ r =
          '[' :: ((renderItems items).toList ++ ']' :: r) := by
        simp [Value.render]
      rw [htext]
      exact .array hroom (itemsText_render items hitems)
  | .object ms, room, r, hc, hf, hd, _ => by
      obtain ⟨hroom, hsorted, hms⟩ := fits_of_object hc hf hd
      have htext : (Value.object ms).render.toList ++ r =
          '{' :: ((renderMembers ms).toList ++ '}' :: r) := by
        simp [Value.render]
      rw [htext]
      -- members printed in ascending key order are built back as they stand
      have hread := ValueText.object hroom (fieldsText_render ms (r := r) hms)
      rwa [Members.ofPairs_eq_of_perm (List.Perm.refl _) hsorted] at hread

/-- An array's elements are read back from their text, through the bracket. -/
theorem itemsText_render : ∀ (items : List Value) {room : Nat} {r : List Char},
    (∀ x ∈ items, x.Canonical ∧ x.FloatFree ∧ x.depth < room) →
    ValueText (.items true) room ((renderItems items).toList ++ ']' :: r) items r
  | [], _, _, _ => by simpa [renderItems] using ValueText.itemsEnd (.done _)
  | x :: rest, room, r, hitems => by
      have ⟨hxc, hxf, hxd⟩ := hitems x List.mem_cons_self
      have hx := valueText_render x hxc hxf hxd
        (delimited_flatMap_comma (fun w => w.render.toList) rest (.inl rfl) r)
      have hrest := laterItemsText_render rest (r := r) fun w hw =>
        hitems w (List.mem_cons_of_mem x hw)
      have htext : (renderItems (x :: rest)).toList ++ ']' :: r =
          x.render.toList ++ ((rest.flatMap fun w => ',' :: w.render.toList) ++ ']' :: r) := by
        simp [renderItems_cons]
      rw [htext]
      exact .itemsFirst (.done _) hx hrest

/-- The elements after an array's first are read back from their text, through the bracket. -/
theorem laterItemsText_render : ∀ (rest : List Value) {room : Nat} {r : List Char},
    (∀ x ∈ rest, x.Canonical ∧ x.FloatFree ∧ x.depth < room) →
    ValueText (.items false) room
      ((rest.flatMap fun w => ',' :: w.render.toList) ++ ']' :: r) rest r
  | [], _, _, _ => .itemsEnd (.done _)
  | x :: rest, room, r, hitems => by
      have ⟨hxc, hxf, hxd⟩ := hitems x List.mem_cons_self
      have hx := valueText_render x hxc hxf hxd
        (delimited_flatMap_comma (fun w => w.render.toList) rest (.inl rfl) r)
      have hrest := laterItemsText_render rest (r := r) fun w hw =>
        hitems w (List.mem_cons_of_mem x hw)
      have htext : ((x :: rest).flatMap fun w => ',' :: w.render.toList) ++ ']' :: r =
          ',' :: (x.render.toList ++
            ((rest.flatMap fun w => ',' :: w.render.toList) ++ ']' :: r)) := by
        simp
      rw [htext]
      exact .itemsNext (.done _) (.done _) hx hrest

/-- An object's members are read back from their text, through the brace, as the pairs written. -/
theorem fieldsText_render : ∀ (ms : List (String × Value)) {room : Nat} {r : List Char},
    (∀ m ∈ ms, m.2.Canonical ∧ m.2.FloatFree ∧ m.2.depth < room) →
    ValueText (.fields true) room ((renderMembers ms).toList ++ '}' :: r) ms r
  | [], _, _, _ => by simpa [renderMembers] using ValueText.fieldsEnd (.done _)
  | (k, v) :: rest, room, r, hms => by
      have ⟨hvc, hvf, hvd⟩ := hms (k, v) List.mem_cons_self
      have hv := valueText_render v hvc hvf hvd
        (delimited_flatMap_comma memberText rest (.inr rfl) r)
      have hrest := laterFieldsText_render rest (r := r) fun m hm =>
        hms m (List.mem_cons_of_mem _ hm)
      have htext : (renderMembers ((k, v) :: rest)).toList ++ '}' :: r =
          memberText (k, v) ++ ((rest.flatMap fun m => ',' :: memberText m) ++ '}' :: r) := by
        simp [renderMembers_cons]
      rw [htext]
      exact ValueText.printedMember (.done _) hv hrest

/-- The members after an object's first are read back from their text, through the brace. -/
theorem laterFieldsText_render : ∀ (rest : List (String × Value)) {room : Nat} {r : List Char},
    (∀ m ∈ rest, m.2.Canonical ∧ m.2.FloatFree ∧ m.2.depth < room) →
    ValueText (.fields false) room ((rest.flatMap fun m => ',' :: memberText m) ++ '}' :: r) rest r
  | [], _, _, _ => .fieldsEnd (.done _)
  | (k, v) :: rest, room, r, hms => by
      have ⟨hvc, hvf, hvd⟩ := hms (k, v) List.mem_cons_self
      have hv := valueText_render v hvc hvf hvd
        (delimited_flatMap_comma memberText rest (.inr rfl) r)
      have hrest := laterFieldsText_render rest (r := r) fun m hm =>
        hms m (List.mem_cons_of_mem _ hm)
      have htext : (((k, v) :: rest).flatMap fun m => ',' :: memberText m) ++ '}' :: r =
          ',' :: (memberText (k, v) ++
            ((rest.flatMap fun m => ',' :: memberText m) ++ '}' :: r)) := by
        simp
      rw [htext]
      exact ValueText.printedMember ⟨_, .done _, .done _⟩ hv hrest

end

end Printed

end AccessRequest.Json
