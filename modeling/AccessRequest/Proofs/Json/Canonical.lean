import AccessRequest.Proofs.Json.Values
import AccessRequest.Proofs.Json.LastWins

/-!
Values as serde_json holds them, and that reading builds only such values. An object is a map, so
its keys strictly ascend with one member per key, and a negative integer is below zero; nothing
else is asked of a value. Reading builds each object from the pairs written through
`Members.ofPairs`, whose keys strictly ascend, makes a negative integer only of a literal from
`-1` down to `-2 ^ 63` (`-0` is the binary64 zero), and nests arrays and objects no deeper than
its room.
-/

namespace AccessRequest.Json

namespace Value

/-- `p` holds of the value and of every value inside it. -/
inductive Everywhere (p : Value → Prop) : Value → Prop
  | null : p .null → Everywhere p .null
  | bool {b : Bool} : p (.bool b) → Everywhere p (.bool b)
  | number {n : Number} : p (.number n) → Everywhere p (.number n)
  | string {s : String} : p (.string s) → Everywhere p (.string s)
  | array {items : List Value} : p (.array items) → (∀ x ∈ items, Everywhere p x) →
      Everywhere p (.array items)
  | object {ms : Members} : p (.object ms) → (∀ m ∈ ms, Everywhere p m.2) →
      Everywhere p (.object ms)

/-- What serde_json keeps at the top of a value: an object's keys strictly ascend, and a negative
integer is below zero. -/
def Ordered : Value → Prop
  | .number (.neg n) => n.toInt < 0
  | .object ms => ms.Pairwise fun a b => a.1 < b.1
  | _ => True

/-- A value as serde_json holds it: ordered at every level. -/
def Canonical (x : Value) : Prop := x.Everywhere Ordered

/-- The value is a binary64 number. -/
def isFloat : Value → Bool
  | .number (.float _) => true
  | _ => false

/-- No number in the value is a binary64 number: each is an integer. -/
def FloatFree (x : Value) : Prop := x.Everywhere fun y => y.isFloat = false

mutual

/-- How deep arrays and objects nest in a value: not at all in a scalar, one level more than
their deepest element in an array or object. -/
def depth : Value → Nat
  | .null => 0
  | .bool _ => 0
  | .number _ => 0
  | .string _ => 0
  | .array items => itemsDepth items + 1
  | .object ms => membersDepth ms + 1

/-- The greatest depth of the elements. -/
def itemsDepth : List Value → Nat
  | [] => 0
  | x :: rest => max x.depth (itemsDepth rest)

/-- The greatest depth of the members' values. -/
def membersDepth : List (String × Value) → Nat
  | [] => 0
  | (_, x) :: rest => max x.depth (membersDepth rest)

end

theorem itemsDepth_le_iff {items : List Value} {n : Nat} :
    itemsDepth items ≤ n ↔ ∀ x ∈ items, x.depth ≤ n := by
  induction items with
  | nil => simp [itemsDepth]
  | cons x rest ih => rw [itemsDepth, Nat.max_le, ih, List.forall_mem_cons]

theorem membersDepth_le_iff {ms : List (String × Value)} {n : Nat} :
    membersDepth ms ≤ n ↔ ∀ m ∈ ms, m.2.depth ≤ n := by
  induction ms with
  | nil => simp [membersDepth]
  | cons m rest ih => rw [membersDepth, Nat.max_le, ih, List.forall_mem_cons]

theorem depth_array_le_iff {items : List Value} {n : Nat} :
    (Value.array items).depth ≤ n + 1 ↔ ∀ x ∈ items, x.depth ≤ n := by
  rw [← itemsDepth_le_iff]
  exact Nat.add_le_add_iff_right

theorem depth_object_le_iff {ms : List (String × Value)} {n : Nat} :
    (Value.object ms).depth ≤ n + 1 ↔ ∀ m ∈ ms, m.2.depth ≤ n := by
  rw [← membersDepth_le_iff]
  exact Nat.add_le_add_iff_right

/-- A value's depth exceeds that of each of its elements. -/
theorem depth_lt_of_mem_array {items : List Value} {x : Value} (hx : x ∈ items) :
    x.depth < (Value.array items).depth := by
  have := itemsDepth_le_iff.mp (Nat.le_refl _) x hx
  show _ < itemsDepth items + 1
  omega

/-- A value's depth exceeds that of each of its members' values. -/
theorem depth_lt_of_mem_object {ms : List (String × Value)} {m : String × Value} (hm : m ∈ ms) :
    m.2.depth < (Value.object ms).depth := by
  have := membersDepth_le_iff.mp (Nat.le_refl _) m hm
  show _ < membersDepth ms + 1
  omega

section Everywhere

variable {p : Value → Prop}

theorem Everywhere.top {x : Value} (h : x.Everywhere p) : p x := by
  cases h <;> assumption

theorem Everywhere.of_array {items : List Value} (h : (Value.array items).Everywhere p) :
    ∀ x ∈ items, x.Everywhere p := by
  cases h with
  | array _ hitems => exact hitems

theorem Everywhere.of_object {ms : Members} (h : (Value.object ms).Everywhere p) :
    ∀ m ∈ ms, m.2.Everywhere p := by
  cases h with
  | object _ hms => exact hms

end Everywhere

/-! Both properties are decided by walking the value. -/

instance : DecidablePred Ordered := fun x =>
  match x with
  | .null | .bool _ | .number (.nat _) | .number (.float _) | .string _ | .array _ => isTrue trivial
  | .number (.neg n) => inferInstanceAs (Decidable (n.toInt < 0))
  | .object ms => inferInstanceAs (Decidable (ms.Pairwise fun a b => a.1 < b.1))

section Decide

variable (p : Value → Prop) [DecidablePred p]

mutual

/-- Whether `p` holds everywhere in a value. -/
def decideEverywhere : (x : Value) → Decidable (x.Everywhere p)
  | .null => decidable_of_iff _ ⟨Everywhere.null, Everywhere.top⟩
  | .bool _ => decidable_of_iff _ ⟨Everywhere.bool, Everywhere.top⟩
  | .number _ => decidable_of_iff _ ⟨Everywhere.number, Everywhere.top⟩
  | .string _ => decidable_of_iff _ ⟨Everywhere.string, Everywhere.top⟩
  | .array items =>
      match decideEverywhereItems items with
      | isTrue h => decidable_of_iff _ ⟨fun hp => .array hp h, Everywhere.top⟩
      | isFalse h => isFalse fun he => h he.of_array
  | .object ms =>
      match decideEverywhereMembers ms with
      | isTrue h => decidable_of_iff _ ⟨fun hp => .object hp h, Everywhere.top⟩
      | isFalse h => isFalse fun he => h he.of_object

/-- Whether `p` holds everywhere in each element. -/
def decideEverywhereItems : (items : List Value) → Decidable (∀ x ∈ items, x.Everywhere p)
  | [] => isTrue fun _ hx => absurd hx List.not_mem_nil
  | x :: rest =>
      match decideEverywhere x, decideEverywhereItems rest with
      | isTrue hx, isTrue hrest =>
        isTrue fun y hy => (List.mem_cons.mp hy).elim (· ▸ hx) (hrest y)
      | isFalse hx, _ => isFalse fun h => hx (h x List.mem_cons_self)
      | _, isFalse hrest => isFalse fun h => hrest fun y hy => h y (List.mem_cons_of_mem x hy)

/-- Whether `p` holds everywhere in each member's value. -/
def decideEverywhereMembers :
    (ms : List (String × Value)) → Decidable (∀ m ∈ ms, m.2.Everywhere p)
  | [] => isTrue fun _ hm => absurd hm List.not_mem_nil
  | m :: rest =>
      match decideEverywhere m.2, decideEverywhereMembers rest with
      | isTrue hm, isTrue hrest =>
        isTrue fun y hy => (List.mem_cons.mp hy).elim (· ▸ hm) (hrest y)
      | isFalse hm, _ => isFalse fun h => hm (h m List.mem_cons_self)
      | _, isFalse hrest => isFalse fun h => hrest fun y hy => h y (List.mem_cons_of_mem m hy)

end

instance : DecidablePred (Everywhere p) := decideEverywhere p

end Decide

instance : DecidablePred Canonical := fun x => inferInstanceAs (Decidable (x.Everywhere Ordered))

instance : DecidablePred FloatFree := fun x =>
  inferInstanceAs (Decidable (x.Everywhere fun y => y.isFloat = false))

end Value

/-! ### Numbers read are ordered -/

section Numbers

variable {positive : Bool} {significand : Nat} {cs r : List Char} {n : Number}

theorem ordered_of_fromParts {exponent : Int} {rest : List Char}
    (h : (fromParts positive significand exponent rest).map (·, cs) = .ok (n, r)) :
    (Value.number n).Ordered := by
  -- every number made from parts is a binary64 number
  obtain ⟨magnitude, hparts⟩ : ∃ magnitude : Except Fault Binary64,
      fromParts positive significand exponent rest =
        magnitude.map fun y => .float (Binary64.withSign (!positive) y) := ⟨_, rfl⟩
  rw [hparts] at h
  cases magnitude with
  | error f => cases h
  | ok y =>
      cases h
      trivial

theorem ordered_of_readExponentDigits {pe : Bool} {start : Int} {value : Nat}
    (h : readExponentDigits positive pe significand start value cs = .ok (n, r)) :
    (Value.number n).Ordered := by
  induction cs generalizing value with
  | nil => exact ordered_of_fromParts h
  | cons c rest ih =>
      simp only [readExponentDigits] at h
      split at h
      · split at h
        · split at h
          · cases h
          · cases h
            trivial
        · exact ih h
      · exact ordered_of_fromParts h

theorem ordered_of_readExponent {start : Int}
    (h : readExponent positive significand start cs = .ok (n, r)) : (Value.number n).Ordered := by
  unfold readExponent at h
  split at h
  · cases h
  · split at h
    · exact ordered_of_readExponentDigits h
    · cases h

theorem ordered_of_readAfterOverflow {exponent : Int}
    (h : readAfterOverflow positive significand exponent cs = .ok (n, r)) :
    (Value.number n).Ordered := by
  unfold readAfterOverflow at h
  split at h
  · split at h
    · exact ordered_of_readExponent h
    · exact ordered_of_fromParts h
  · exact ordered_of_fromParts h

theorem ordered_of_readFraction {exponent : Int} {count : Nat}
    (h : readFraction positive significand exponent count cs = .ok (n, r)) :
    (Value.number n).Ordered := by
  induction cs generalizing significand count with
  | nil =>
      simp only [readFraction] at h
      split at h
      · cases h
      · exact ordered_of_fromParts h
  | cons c rest ih =>
      simp only [readFraction] at h
      split at h
      · split at h
        · exact ordered_of_readAfterOverflow h
        · exact ih h
      · split at h
        · cases h
        · split at h
          · exact ordered_of_readExponent h
          · exact ordered_of_fromParts h

/-- A whole number is negative only when its significand is from `1` to `2 ^ 63`. -/
theorem ordered_wholeNumber (positive : Bool) (significand : Nat) :
    (Value.number (readNumberTail.wholeNumber positive significand)).Ordered := by
  unfold readNumberTail.wholeNumber
  split
  · trivial
  · split
    · rename_i hrange
      show (Int64.ofInt (-(significand : Int))).toInt < 0
      rw [Int64.toInt_ofInt_of_le (by simp [Nat.pow] at hrange ⊢; omega) (by omega)]
      omega
    · trivial

theorem ordered_of_readNumberTail (h : readNumberTail positive significand cs = .ok (n, r)) :
    (Value.number n).Ordered := by
  unfold readNumberTail at h
  split at h
  · exact ordered_of_readFraction h
  · split at h
    · exact ordered_of_readExponent h
    · cases h
      exact ordered_wholeNumber positive significand
  · cases h
    exact ordered_wholeNumber positive significand

theorem ordered_of_readLongInteger (h : readLongInteger positive significand cs = .ok (n, r)) :
    (Value.number n).Ordered := by
  unfold readLongInteger at h
  split at h
  · exact ordered_of_readFraction h
  · split at h
    · exact ordered_of_readExponent h
    · exact ordered_of_fromParts h
  · exact ordered_of_fromParts h

theorem ordered_of_readSignificand (h : readSignificand positive significand cs = .ok (n, r)) :
    (Value.number n).Ordered := by
  induction cs generalizing significand with
  | nil => exact ordered_of_readNumberTail h
  | cons c rest ih =>
      simp only [readSignificand] at h
      split at h
      · split at h
        · exact ordered_of_readLongInteger h
        · exact ih h
      · exact ordered_of_readNumberTail h

/-- A number read is ordered: a negative integer is read only from `-1` down to `-2 ^ 63`. -/
theorem ordered_of_readNumber (h : readNumber positive cs = .ok (n, r)) :
    (Value.number n).Ordered := by
  unfold readNumber at h
  split at h
  · cases h
  · split at h
    · split at h
      · cases h
      · exact ordered_of_readNumberTail h
    · exact ordered_of_readNumberTail h
  · split at h
    · exact ordered_of_readSignificand h
    · cases h

end Numbers

/-! ### Values read are canonical -/

/-- What reading builds at a slot within `room` levels: canonical values that leave a level of
the room free. -/
def Built : (s : Slot) → Nat → s.Result → Prop
  | .value => fun room (x : Value) => x.Canonical ∧ x.depth ≤ room - 1
  | .items _ => fun room (xs : List Value) => ∀ x ∈ xs, x.Canonical ∧ x.depth ≤ room - 1
  | .fields _ => fun room (pairs : List (String × Value)) =>
      ∀ m ∈ pairs, m.2.Canonical ∧ m.2.depth ≤ room - 1

/-- Reading builds canonical values, nested within its room. -/
theorem ValueText.built {s : Slot} {room : Nat} {cs r : List Char} {x : s.Result}
    (h : ValueText s room cs x r) : Built s room x := by
  induction h with
  | nullWord => exact ⟨.null trivial, Nat.zero_le _⟩
  | trueWord => exact ⟨.bool trivial, Nat.zero_le _⟩
  | falseWord => exact ⟨.bool trivial, Nat.zero_le _⟩
  | number _ hn => exact ⟨.number (ordered_of_readNumber hn), Nat.zero_le _⟩
  | negative hn => exact ⟨.number (ordered_of_readNumber hn), Nat.zero_le _⟩
  | string => exact ⟨.string trivial, Nat.zero_le _⟩
  | array hroom _ ih =>
      refine ⟨.array trivial fun x hx => (ih x hx).1, ?_⟩
      have hdepth := Value.depth_array_le_iff.mpr fun x hx => (ih x hx).2
      omega
  | object hroom _ ih =>
      -- the members built are some of the pairs written, with keys now strictly ascending
      have hmem := fun m hm => ih m (Members.mem_of_mem_ofPairs hm)
      refine ⟨.object (Members.ofPairs_pairwise_lt _) fun m hm => (hmem m hm).1, ?_⟩
      have hdepth := Value.depth_object_le_iff.mpr fun m hm => (hmem m hm).2
      omega
  | itemsEnd => exact fun _ hx => absurd hx List.not_mem_nil
  | itemsFirst _ _ _ ihv ihi | itemsNext _ _ _ _ ihv ihi =>
      intro y hy
      rcases List.mem_cons.mp hy with rfl | hy
      · exact ihv
      · exact ihi y hy
  | fieldsEnd => exact fun _ hm => absurd hm List.not_mem_nil
  | fieldsNext _ _ _ _ _ _ ihv ihf =>
      intro m hm
      rcases List.mem_cons.mp hm with rfl | hm
      · exact ihv
      · exact ihf m hm

end AccessRequest.Json
