import AccessRequest.Proofs.Json.Fields

/-!
Reading a value is its grammar, with the value read. `ValueText` relates JSON text to the value
the reader builds from it: a string stands for what its escapes decode to, a number for what the
number reader makes of it (it may refuse one out of range), an array for its elements and an
object for its members with a later key winning. Arrays and objects take one level of the
reader's nesting room. Each arm of `readValue`, `readElements` and `readMembers` is stated once
below; soundness follows their recursion and completeness the grammar's.
-/

namespace AccessRequest.Json

/-- Where the reader stands in JSON text: at a value, or inside an array or an object, before its
first element or member or after one. -/
inductive Slot where
  | value
  | items (first : Bool)
  | fields (first : Bool)

/-- What the text read at a slot stands for: a value, an array's elements in order, or an
object's members as the pairs written, in order. -/
def Slot.Result : Slot → Type
  | .value => Value
  | .items _ => List Value
  | .fields _ => List (String × Value)

/-- JSON text as the reader reads it, within `room` levels of nesting: `ValueText s room cs x r`
says that `cs` starts with what slot `s` holds, which reads as `x`, and that `r` follows it. A
value has no blanks around it; the elements and members run through the closing bracket or
brace. -/
inductive ValueText : (s : Slot) → Nat → List Char → s.Result → List Char → Prop
  | nullWord {room : Nat} {r : List Char} :
      ValueText .value room ('n' :: 'u' :: 'l' :: 'l' :: r) Value.null r
  | trueWord {room : Nat} {r : List Char} :
      ValueText .value room ('t' :: 'r' :: 'u' :: 'e' :: r) (Value.bool true) r
  | falseWord {room : Nat} {r : List Char} :
      ValueText .value room ('f' :: 'a' :: 'l' :: 's' :: 'e' :: r) (Value.bool false) r
  | number {room : Nat} {c : Char} {cs r : List Char} {n : Number} : c.isDigit = true →
      readNumber true (c :: cs) = .ok (n, r) → ValueText .value room (c :: cs) (Value.number n) r
  | negative {room : Nat} {cs r : List Char} {n : Number} : readNumber false cs = .ok (n, r) →
      ValueText .value room ('-' :: cs) (Value.number n) r
  | string {room : Nat} {cs r : List Char} {s : String} : StrRest cs s.toList r →
      ValueText .value room ('"' :: cs) (Value.string s) r
  | array {room : Nat} {cs r : List Char} {xs : List Value} : 1 < room →
      ValueText (.items true) (room - 1) cs xs r → ValueText .value room ('[' :: cs) (Value.array xs) r
  | object {room : Nat} {cs r : List Char} {pairs : List (String × Value)} : 1 < room →
      ValueText (.fields true) (room - 1) cs pairs r →
      ValueText .value room ('{' :: cs) (Value.object (Members.ofPairs pairs)) r
  | itemsEnd {room : Nat} {first : Bool} {cs r : List Char} : Blank cs (']' :: r) →
      ValueText (.items first) room cs ([] : List Value) r
  | itemsFirst {room : Nat} {cs v after r : List Char} {x : Value} {xs : List Value} :
      Blank cs v → ValueText .value room v x after → ValueText (.items false) room after xs r →
      ValueText (.items true) room cs (x :: xs) r
  | itemsNext {room : Nat} {cs next v after r : List Char} {x : Value} {xs : List Value} :
      Blank cs (',' :: next) → Blank next v → ValueText .value room v x after →
      ValueText (.items false) room after xs r → ValueText (.items false) room cs (x :: xs) r
  | fieldsEnd {room : Nat} {first : Bool} {cs r : List Char} : Blank cs ('}' :: r) →
      ValueText (.fields first) room cs ([] : List (String × Value)) r
  | fieldsNext {room : Nat} {first : Bool} {cs key afterKey colon v after r : List Char}
      {name : String} {x : Value} {pairs : List (String × Value)} :
      KeyLead first cs ('"' :: key) → StrRest key name.toList afterKey →
      Blank afterKey (':' :: colon) → Blank colon v → ValueText .value room v x after →
      ValueText (.fields false) room after pairs r →
      ValueText (.fields first) room cs ((name, x) :: pairs) r

/-- A value starts with no blank, comma or closing bracket. -/
theorem ValueText.value_head {room : Nat} {v r : List Char} {x : Value}
    (h : ValueText .value room v x r) :
    ∃ c rest, v = c :: rest ∧ isBlank c = false ∧ c ≠ ']' ∧ c ≠ ',' := by
  cases h with
  | number hd =>
      refine ⟨_, _, rfl, isBlank_of_isDigit hd, ?_, ?_⟩ <;>
        (rintro rfl; exact absurd hd (by decide))
  | _ => exact ⟨_, _, rfl, by decide, by decide, by decide⟩

theorem Blank.skipBlank_eq_valueText {room : Nat} {cs v r : List Char} {x : Value}
    (hb : Blank cs v) (hv : ValueText .value room v x r) : skipBlank cs = v := by
  obtain ⟨c, rest, rfl, hc, -⟩ := hv.value_head
  exact hb.skipBlank_eq_cons hc

/-! ### The text a reader leaves -/

theorem Shorter.length_lt_of_map_prod {α : Type} {cs r : List Char} {a : α}
    {x : Except Fault (α × Shorter cs)} (h : x.map (Prod.map id Subtype.val) = .ok (a, r)) :
    r.length < cs.length := by
  cases x with
  | error f => cases h
  | ok p =>
      cases h
      exact p.2.property

theorem map_pair_eq_ok {cs : List Char} {y : Except Fault (Shorter cs)} {a x : Value}
    {r : List Char} :
    (y.map (fun t => (a, t))).map (Prod.map id Subtype.val) = .ok (x, r) ↔
      x = a ∧ y.map Subtype.val = .ok r := by
  cases y <;> simp [Except.map, Prod.map, eq_comm]

/-! ### One step of reading a value -/

section ReadValueSteps

variable {room : Nat} {cs rest r : List Char} {x : Value}

theorem readValue_nil {p : Value × List Char} (h : skipBlank cs = []) :
    (readValue room cs).map (Prod.map id Subtype.val) ≠ .ok p := by
  rw [readValue.eq_1]
  split <;> rename_i heq <;> simp only [h, reduceCtorEq] at heq
  simp [Except.map]

theorem readValue_null (h : skipBlank cs = 'n' :: rest) :
    (readValue room cs).map (Prod.map id Subtype.val) = .ok (x, r) ↔
      x = .null ∧ expectWord ['u', 'l', 'l'] rest = .ok r := by
  rw [readValue.eq_1]
  split <;> rename_i heq <;>
    simp only [h, List.cons.injEq, reduceCtorEq, true_and] at heq
  all_goals first
    | exact absurd heq.1 (by decide)
    | (obtain ⟨rfl, -⟩ := heq; contradiction)
    | (subst heq; rw [map_pair_eq_ok, wordAt_map_val])

theorem readValue_true (h : skipBlank cs = 't' :: rest) :
    (readValue room cs).map (Prod.map id Subtype.val) = .ok (x, r) ↔
      x = .bool true ∧ expectWord ['r', 'u', 'e'] rest = .ok r := by
  rw [readValue.eq_1]
  split <;> rename_i heq <;>
    simp only [h, List.cons.injEq, reduceCtorEq, true_and] at heq
  all_goals first
    | exact absurd heq.1 (by decide)
    | (obtain ⟨rfl, -⟩ := heq; contradiction)
    | (subst heq; rw [map_pair_eq_ok, wordAt_map_val])

theorem readValue_false (h : skipBlank cs = 'f' :: rest) :
    (readValue room cs).map (Prod.map id Subtype.val) = .ok (x, r) ↔
      x = .bool false ∧ expectWord ['a', 'l', 's', 'e'] rest = .ok r := by
  rw [readValue.eq_1]
  split <;> rename_i heq <;>
    simp only [h, List.cons.injEq, reduceCtorEq, true_and] at heq
  all_goals first
    | exact absurd heq.1 (by decide)
    | (obtain ⟨rfl, -⟩ := heq; contradiction)
    | (subst heq; rw [map_pair_eq_ok, wordAt_map_val])

theorem readValue_minus (h : skipBlank cs = '-' :: rest) :
    (readValue room cs).map (Prod.map id Subtype.val) = .ok (x, r) ↔
      ∃ n, x = .number n ∧ readNumber false rest = .ok (n, r) := by
  rw [readValue.eq_1]
  split <;> rename_i heq <;>
    simp only [h, List.cons.injEq, reduceCtorEq, true_and] at heq
  all_goals first
    | exact absurd heq.1 (by decide)
    | (obtain ⟨rfl, -⟩ := heq; contradiction)
    | skip
  subst heq
  unfold numberAt
  split <;> rename_i hn
  · simp [hn, Except.map, Prod.map]
    grind
  · simp [hn, Except.map]

theorem readValue_quote (h : skipBlank cs = '"' :: rest) :
    (readValue room cs).map (Prod.map id Subtype.val) = .ok (x, r) ↔
      ∃ s, x = .string s ∧ readString rest = .ok (s, r) := by
  rw [readValue.eq_1]
  split <;> rename_i heq <;>
    simp only [h, List.cons.injEq, reduceCtorEq, true_and] at heq
  all_goals first
    | exact absurd heq.1 (by decide)
    | (obtain ⟨rfl, -⟩ := heq; contradiction)
    | skip
  subst heq
  unfold stringAt
  split <;> rename_i hs
  · simp [hs, Except.map, Prod.map]
    grind
  · simp [hs, Except.map]

theorem readValue_bracket (h : skipBlank cs = '[' :: rest) :
    (readValue room cs).map (Prod.map id Subtype.val) = .ok (x, r) ↔
      1 < room ∧ ∃ items, x = .array items ∧
        (readElements (room - 1) rest [] true).map (Prod.map id Subtype.val) = .ok (items, r) := by
  rw [readValue.eq_1]
  split <;> rename_i heq <;>
    simp only [h, List.cons.injEq, reduceCtorEq, true_and] at heq
  all_goals first
    | exact absurd heq.1 (by decide)
    | (obtain ⟨rfl, -⟩ := heq; contradiction)
    | skip
  subst heq
  split
  · rename_i hroom
    simp [Except.map, Nat.not_lt.mpr hroom]
  · rename_i hroom
    rcases readElements (room - 1) rest [] true with f | ⟨items, after⟩
    · simp [Except.map]
    · simp [Except.map, Prod.map, Shorter.widen, Nat.lt_of_not_le hroom]
      grind

theorem readValue_brace (h : skipBlank cs = '{' :: rest) :
    (readValue room cs).map (Prod.map id Subtype.val) = .ok (x, r) ↔
      1 < room ∧ ∃ ms, x = .object ms ∧
        (readMembers (room - 1) rest [] true).map (Prod.map id Subtype.val) = .ok (ms, r) := by
  rw [readValue.eq_1]
  split <;> rename_i heq <;>
    simp only [h, List.cons.injEq, reduceCtorEq, true_and] at heq
  all_goals first
    | exact absurd heq.1 (by decide)
    | (obtain ⟨rfl, -⟩ := heq; contradiction)
    | skip
  subst heq
  split
  · rename_i hroom
    simp [Except.map, Nat.not_lt.mpr hroom]
  · rename_i hroom
    rcases readMembers (room - 1) rest [] true with f | ⟨ms, after⟩
    · simp [Except.map]
    · simp [Except.map, Prod.map, Shorter.widen, Nat.lt_of_not_le hroom]
      grind

theorem readValue_digit {c : Char} (h : skipBlank cs = c :: rest) (hc : c.isDigit = true) :
    (readValue room cs).map (Prod.map id Subtype.val) = .ok (x, r) ↔
      ∃ n, x = .number n ∧ readNumber true (c :: rest) = .ok (n, r) := by
  rw [readValue.eq_1]
  split <;> rename_i heq <;>
    simp only [h, List.cons.injEq, reduceCtorEq] at heq
  all_goals first
    | exact absurd heq.1 (ne_of_isDigit hc (by decide))
    | skip
  obtain ⟨rfl, rfl⟩ := heq
  rw [if_pos hc]
  unfold numberAt
  split <;> rename_i hn
  · simp [hn, Except.map, Prod.map]
    grind
  · simp [hn, Except.map]

/-- What a value cannot start with gives no value. -/
theorem readValue_other {c : Char} {p : Value × List Char} (h : skipBlank cs = c :: rest)
    (hstart : c ≠ 'n' ∧ c ≠ 't' ∧ c ≠ 'f' ∧ c ≠ '-' ∧ c ≠ '"' ∧ c ≠ '[' ∧ c ≠ '{')
    (hc : c.isDigit = false) : (readValue room cs).map (Prod.map id Subtype.val) ≠ .ok p := by
  obtain ⟨hn, ht, hf, hm, hq, hb, hbr⟩ := hstart
  rw [readValue.eq_1]
  split <;> rename_i heq <;>
    simp only [h, List.cons.injEq, reduceCtorEq] at heq
  all_goals first
    | exact absurd heq.1 ‹_›
    | (obtain ⟨rfl, rfl⟩ := heq
       rw [if_neg (by simp [hc])]
       simp [Except.map])

/-- A closing bracket or brace starts no value. -/
theorem readValue_close {c : Char} {p : Value × List Char} (h : skipBlank cs = c :: rest)
    (hc : c = ']' ∨ c = '}') : (readValue room cs).map (Prod.map id Subtype.val) ≠ .ok p := by
  rcases hc with rfl | rfl <;> exact readValue_other h (by decide) (by decide)

end ReadValueSteps

/-! ### One step of reading an array's elements -/

section ReadElementsSteps

variable {room : Nat} {cs rest : List Char} {acc : List Value}

theorem readElements_nil {first : Bool} {p : List Value × List Char} (h : skipBlank cs = []) :
    (readElements room cs acc first).map (Prod.map id Subtype.val) ≠ .ok p := by
  rw [readElements.eq_1]
  split <;> rename_i heq <;> simp only [h, reduceCtorEq] at heq
  simp [Except.map]

theorem readElements_close (h : skipBlank cs = ']' :: rest) (first : Bool) :
    (readElements room cs acc first).map (Prod.map id Subtype.val) = .ok (acc.reverse, rest) := by
  rw [readElements.eq_1]
  split <;> rename_i heq <;>
    simp only [h, List.cons.injEq, reduceCtorEq, true_and] at heq
  all_goals first
    | exact absurd heq.1 (by decide)
    | (obtain ⟨rfl, -⟩ := heq; contradiction)
    | (subst heq; rfl)

theorem readElements_comma_first {p : List Value × List Char} (h : skipBlank cs = ',' :: rest) :
    (readElements room cs acc true).map (Prod.map id Subtype.val) ≠ .ok p := by
  rw [readElements.eq_1]
  split <;> rename_i heq <;>
    simp only [h, List.cons.injEq, reduceCtorEq, true_and] at heq
  all_goals first
    | exact absurd heq.1 (by decide)
    | (obtain ⟨rfl, -⟩ := heq; contradiction)
    | simp [Except.map]

/-- After a comma, the end of the text or a closing bracket is refused. -/
theorem readElements_trailing {p : List Value × List Char} (h : skipBlank cs = ',' :: rest)
    (hv : skipBlank rest = [] ∨ ∃ after, skipBlank rest = ']' :: after) :
    (readElements room cs acc false).map (Prod.map id Subtype.val) ≠ .ok p := by
  rw [readElements.eq_1]
  split <;> rename_i heq <;>
    simp only [h, List.cons.injEq, reduceCtorEq, true_and] at heq
  all_goals first
    | exact absurd heq.1 (by decide)
    | (obtain ⟨rfl, -⟩ := heq; contradiction)
    | skip
  subst heq
  simp only [Bool.false_eq_true, if_false]
  rcases hv with hv | ⟨after, hv⟩ <;> rw [hv] <;> simp [Except.map]

theorem readElements_next {d : Char} {more : List Char} (h : skipBlank cs = ',' :: rest)
    (hv : skipBlank rest = d :: more) (hd : d ≠ ']') :
    (readElements room cs acc false).map (Prod.map id Subtype.val) =
      ((readValue room rest).map (Prod.map id Subtype.val)).bind fun p =>
        (readElements room p.2 (p.1 :: acc) false).map (Prod.map id Subtype.val) := by
  rw [readElements.eq_1]
  split <;> rename_i heq <;>
    simp only [h, List.cons.injEq, reduceCtorEq, true_and] at heq
  all_goals first
    | exact absurd heq.1 (by decide)
    | (obtain ⟨rfl, -⟩ := heq; contradiction)
    | skip
  subst heq
  simp only [Bool.false_eq_true, if_false]
  rw [hv]
  split
  · rename_i heq
    exact absurd (List.cons.inj heq).1 hd
  · rename_i heq
    cases heq
  · rcases readValue room rest with f | ⟨x, after, hafter⟩
    · rfl
    · dsimp only [Except.map, Except.bind, Prod.map, id]
      cases readElements room after (x :: acc) false <;> rfl

theorem readElements_first {c : Char} (h : skipBlank cs = c :: rest) (hclose : c ≠ ']')
    (hcomma : c ≠ ',') :
    (readElements room cs acc true).map (Prod.map id Subtype.val) =
      ((readValue room (c :: rest)).map (Prod.map id Subtype.val)).bind fun p =>
        (readElements room p.2 (p.1 :: acc) false).map (Prod.map id Subtype.val) := by
  rw [readElements.eq_1]
  split <;> rename_i heq <;>
    simp only [h, List.cons.injEq, reduceCtorEq] at heq
  all_goals first
    | exact absurd heq.1 ‹_›
    | skip
  obtain ⟨h1, h2⟩ := heq
  cases h1
  cases h2
  rw [if_pos rfl]
  rcases readValue room (c :: rest) with f | ⟨x, after, hafter⟩
  · rfl
  · dsimp only [Except.map, Except.bind, Prod.map, id]
    cases readElements room after (x :: acc) false <;> rfl

/-- After an element, only a comma or the closing bracket may come. -/
theorem readElements_other {c : Char} {p : List Value × List Char} (h : skipBlank cs = c :: rest)
    (hclose : c ≠ ']') (hcomma : c ≠ ',') :
    (readElements room cs acc false).map (Prod.map id Subtype.val) ≠ .ok p := by
  rw [readElements.eq_1]
  split <;> rename_i heq <;>
    simp only [h, List.cons.injEq, reduceCtorEq] at heq
  all_goals first
    | exact absurd heq.1 ‹_›
    | simp [Except.map]

end ReadElementsSteps

/-! ### One step of reading an object's members -/

section ReadMembersSteps

variable {room : Nat} {cs rest : List Char} {acc : List (String × Value)}

theorem readMembers_close (h : skipBlank cs = '}' :: rest) (first : Bool) :
    (readMembers room cs acc first).map (Prod.map id Subtype.val) =
      .ok (Members.ofLatestFirst acc, rest) := by
  rw [readMembers.eq_1]
  split <;> rename_i heq <;>
    simp only [h, List.cons.injEq, reduceCtorEq, true_and] at heq
  all_goals first
    | (obtain ⟨rfl, -⟩ := heq; contradiction)
    | (subst heq; rfl)

theorem readMembers_member {c : Char} {first : Bool} {keyRest afterKey valueText : List Char}
    {key : String} (h : skipBlank cs = c :: rest) (hclose : c ≠ '}')
    (hsep : ¬ (c ≠ ',' ∧ !first)) (hk : keyText c rest first = '"' :: keyRest)
    (hs : readString keyRest = .ok (key, afterKey))
    (hcolon : skipBlank afterKey = ':' :: valueText) :
    (readMembers room cs acc first).map (Prod.map id Subtype.val) =
      ((readValue room valueText).map (Prod.map id Subtype.val)).bind fun p =>
        (readMembers room p.2 ((key, p.1) :: acc) false).map (Prod.map id Subtype.val) := by
  rw [readMembers.eq_1]
  split <;> rename_i heq <;>
    simp only [h, List.cons.injEq, reduceCtorEq] at heq
  all_goals first
    | exact absurd heq.1 hclose
    | skip
  obtain ⟨rfl, rfl⟩ := heq
  rw [if_neg hsep]
  split <;> rename_i hk' <;> rw [hk] at hk' <;>
    simp only [List.cons.injEq, reduceCtorEq, true_and] at hk'
  all_goals first
    | exact absurd hk'.1 (by decide)
    | exact absurd hk'.1.symm ‹_›
    | skip
  subst hk'
  split <;> rename_i hs' <;> rw [hs] at hs' <;> simp only [reduceCtorEq, Except.ok.injEq] at hs'
  obtain ⟨rfl, rfl⟩ := Prod.mk.inj hs'
  split <;> rename_i hc' <;> rw [hcolon] at hc' <;>
    simp only [List.cons.injEq, reduceCtorEq, true_and] at hc'
  all_goals first
    | (obtain ⟨rfl, -⟩ := hc'; contradiction)
    | skip
  subst hc'
  rcases readValue room valueText with f | ⟨x, after, hafter⟩
  · rfl
  · dsimp only [Except.map, Except.bind, Prod.map, id]
    cases readMembers room after ((key, x) :: acc) false <;> rfl

/-- A member list that is read: the closing brace, or a key, a colon and a value after the
separator the position asks for. -/
theorem readMembers_ok_cases {first : Bool} {ms : Members} {r : List Char}
    (h : (readMembers room cs acc first).map (Prod.map id Subtype.val) = .ok (ms, r)) :
    (skipBlank cs = '}' :: r ∧ ms = Members.ofLatestFirst acc) ∨
      ∃ c rest keyRest key afterKey valueText, skipBlank cs = c :: rest ∧ c ≠ '}' ∧
        ¬ (c ≠ ',' ∧ !first) ∧ keyText c rest first = '"' :: keyRest ∧
        readString keyRest = .ok (key, afterKey) ∧ skipBlank afterKey = ':' :: valueText ∧
        (((readValue room valueText).map (Prod.map id Subtype.val)).bind fun p =>
          (readMembers room p.2 ((key, p.1) :: acc) false).map (Prod.map id Subtype.val)) =
          .ok (ms, r) := by
  have hread := h
  rw [readMembers.eq_1] at h
  split at h
  · cases h
  · rename_i rest heq
    cases h
    exact .inl ⟨heq, rfl⟩
  · rename_i c rest hclose heq
    split at h
    · cases h
    · rename_i hsep
      split at h
      · rename_i keyRest hk
        split at h
        · cases h
        · rename_i key afterKey hs
          split at h
          · rename_i valueText hc
            refine .inr ⟨c, rest, keyRest, key, afterKey, valueText, heq, hclose, hsep, hk, hs, hc,
              ?_⟩
            rw [← readMembers_member heq hclose hsep hk hs hc]
            exact hread
          · cases h
          · cases h
      · cases h
      · cases h
      · cases h

end ReadMembersSteps

/-! ### Soundness: what is read is well formed, and reads as the value built -/

mutual

/-- What `readValue` reads, after blanks, is a value within its room, read as the value built. -/
theorem valueText_of_readValue {room : Nat} {cs r : List Char} {x : Value}
    (h : (readValue room cs).map (Prod.map id Subtype.val) = .ok (x, r)) :
    ValueText .value room (skipBlank cs) x r := by
  rcases hb : skipBlank cs with _ | ⟨c, rest⟩
  · exact absurd h (readValue_nil hb)
  have hlen := skipBlank_cons_length hb
  rcases valueHead_cases c with rfl | rfl | rfl | rfl | rfl | rfl | rfl | hd | ⟨hstart, hd⟩
  · obtain ⟨rfl, hw⟩ := (readValue_null hb).mp h
    rw [expectWord_eq_ok hw]
    exact .nullWord
  · obtain ⟨rfl, hw⟩ := (readValue_true hb).mp h
    rw [expectWord_eq_ok hw]
    exact .trueWord
  · obtain ⟨rfl, hw⟩ := (readValue_false hb).mp h
    rw [expectWord_eq_ok hw]
    exact .falseWord
  · obtain ⟨n, rfl, hn⟩ := (readValue_minus hb).mp h
    exact .negative hn
  · obtain ⟨s, rfl, hs⟩ := (readValue_quote hb).mp h
    exact .string (readString_eq_ok_iff.mp hs)
  · obtain ⟨hroom, items, rfl, hi⟩ := (readValue_bracket hb).mp h
    obtain ⟨xs, hxs, rfl⟩ := valueText_of_readElements hi
    exact .array hroom hxs
  · obtain ⟨hroom, ms, rfl, hm⟩ := (readValue_brace hb).mp h
    obtain ⟨pairs, hpairs, rfl⟩ := valueText_of_readMembers hm
    have hobject := ValueText.object hroom hpairs
    have hlast : Members.ofPairs pairs = Members.ofLatestFirst (pairs.reverse ++ []) := by
      rw [List.append_nil]
      rfl
    rw [hlast] at hobject
    exact hobject
  · obtain ⟨n, rfl, hn⟩ := (readValue_digit hb hd).mp h
    exact .number hd hn
  · exact absurd h (readValue_other hb hstart hd)
termination_by 2 * cs.length + 1
decreasing_by all_goals omega

/-- The elements `readElements` reads, after those before them. -/
theorem valueText_of_readElements {room : Nat} {cs r : List Char} {acc items : List Value}
    {first : Bool}
    (h : (readElements room cs acc first).map (Prod.map id Subtype.val) = .ok (items, r)) :
    ∃ xs : List Value, ValueText (.items first) room cs xs r ∧ items = acc.reverse ++ xs := by
  rcases hb : skipBlank cs with _ | ⟨c, rest⟩
  · exact absurd h (readElements_nil hb)
  by_cases hclose : c = ']'
  · subst hclose
    rw [readElements_close hb] at h
    cases h
    exact ⟨[], .itemsEnd (Blank.of_skipBlank_eq hb), by simp⟩
  by_cases hcomma : c = ','
  · subst hcomma
    cases first with
    | true => exact absurd h (readElements_comma_first hb)
    | false =>
        -- after the comma comes a value, not the end of the text or of the array
        rcases hv : skipBlank rest with _ | ⟨d, more⟩
        · exact absurd h (readElements_trailing hb (.inl hv))
        by_cases hd : d = ']'
        · subst hd
          exact absurd h (readElements_trailing hb (.inr ⟨more, hv⟩))
        rw [readElements_next hb hv hd] at h
        obtain ⟨⟨x, after⟩, hx, hi⟩ := bind_eq_ok h
        dsimp only at hi
        have hlen := skipBlank_cons_length hb
        have hafter := Shorter.length_lt_of_map_prod hx
        obtain ⟨xs, hxs, rfl⟩ := valueText_of_readElements hi
        exact ⟨x :: xs, .itemsNext (Blank.of_skipBlank_eq hb) (Blank.skipBlank_self rest)
          (valueText_of_readValue hx) hxs, by simp⟩
  cases first with
  | false => exact absurd h (readElements_other hb hclose hcomma)
  | true =>
      rw [readElements_first hb hclose hcomma] at h
      obtain ⟨⟨x, after⟩, hx, hi⟩ := bind_eq_ok h
      dsimp only at hi
      have hlen := skipBlank_cons_length_le hb
      have hafter := Shorter.length_lt_of_map_prod hx
      -- the first element starts where the blanks end, so skipping blanks again leaves it
      have hself : skipBlank (c :: rest) = c :: rest := by rw [← hb, skipBlank_skipBlank]
      have hfirst := valueText_of_readValue hx
      rw [hself] at hfirst
      obtain ⟨xs, hxs, rfl⟩ := valueText_of_readElements hi
      exact ⟨x :: xs, .itemsFirst (Blank.of_skipBlank_eq hb) hfirst hxs, by simp⟩
termination_by 2 * cs.length + 2
decreasing_by all_goals simp only [List.length_cons] at *; omega

/-- The members `readMembers` reads, after those before them: the pairs written, a later key
winning. -/
theorem valueText_of_readMembers {room : Nat} {cs r : List Char} {acc : List (String × Value)}
    {ms : Members} {first : Bool}
    (h : (readMembers room cs acc first).map (Prod.map id Subtype.val) = .ok (ms, r)) :
    ∃ pairs : List (String × Value), ValueText (.fields first) room cs pairs r ∧
      ms = Members.ofLatestFirst (pairs.reverse ++ acc) := by
  rcases readMembers_ok_cases h with ⟨hb, rfl⟩ | ⟨c, rest, keyRest, key, afterKey, valueText, hb, -,
    hsep, hk, hs, hcolon, hmember⟩
  · exact ⟨[], .fieldsEnd (Blank.of_skipBlank_eq hb), by simp⟩
  obtain ⟨⟨x, after⟩, hx, hm⟩ := bind_eq_ok hmember
  dsimp only at hm
  have hlen := valueText_length_lt hb hk hs hcolon
  have hafter := Shorter.length_lt_of_map_prod hx
  obtain ⟨pairs, hpairs, rfl⟩ := valueText_of_readMembers hm
  exact ⟨(key, x) :: pairs, .fieldsNext (keyLead_of_keyText hb hsep hk) (readString_eq_ok_iff.mp hs)
    (Blank.of_skipBlank_eq hcolon) (Blank.skipBlank_self valueText) (valueText_of_readValue hx)
    hpairs, by simp⟩
termination_by 2 * cs.length + 2
decreasing_by all_goals omega

end

/-! ### Completeness: what is well formed within the room is read -/

/-- What reading does after each slot of JSON text: a value is read from any text that reaches it
through blanks; elements and members are read after any that came before them. -/
def Reads : (s : Slot) → Nat → List Char → s.Result → List Char → Prop
  | .value => fun room v (x : Value) r => ∀ cs, skipBlank cs = v →
      (readValue room cs).map (Prod.map id Subtype.val) = .ok (x, r)
  | .items first => fun room cs (xs : List Value) r => ∀ acc : List Value,
      (readElements room cs acc first).map (Prod.map id Subtype.val) = .ok (acc.reverse ++ xs, r)
  | .fields first => fun room cs (pairs : List (String × Value)) r =>
      ∀ acc : List (String × Value), (readMembers room cs acc first).map (Prod.map id Subtype.val) =
        .ok (Members.ofLatestFirst (pairs.reverse ++ acc), r)

theorem ValueText.reads {s : Slot} {room : Nat} {cs r : List Char} {x : s.Result}
    (h : ValueText s room cs x r) : Reads s room cs x r := by
  induction h with
  | nullWord =>
      intro cs hcs
      exact (readValue_null hcs).mpr ⟨rfl, expectWord_append ['u', 'l', 'l'] _⟩
  | trueWord =>
      intro cs hcs
      exact (readValue_true hcs).mpr ⟨rfl, expectWord_append ['r', 'u', 'e'] _⟩
  | falseWord =>
      intro cs hcs
      exact (readValue_false hcs).mpr ⟨rfl, expectWord_append ['a', 'l', 's', 'e'] _⟩
  | number hd hn =>
      intro cs hcs
      exact (readValue_digit hcs hd).mpr ⟨_, rfl, hn⟩
  | negative hn =>
      intro cs hcs
      exact (readValue_minus hcs).mpr ⟨_, rfl, hn⟩
  | string hs =>
      intro cs hcs
      exact (readValue_quote hcs).mpr ⟨_, rfl, readString_eq_ok_iff.mpr hs⟩
  | array hroom _ ih =>
      intro cs hcs
      exact (readValue_bracket hcs).mpr ⟨hroom, _, rfl, ih []⟩
  | @object room cs r pairs hroom _ ih =>
      intro cs' hcs
      have hread := ih []
      rw [List.append_nil] at hread
      exact (readValue_brace hcs).mpr ⟨hroom, _, rfl, hread⟩
  | itemsEnd hb =>
      intro acc
      rw [readElements_close (hb.skipBlank_eq_cons (by decide)), List.append_nil]
  | @itemsFirst room cs v after r x xs hb hv _ ihv ihi =>
      intro acc
      obtain ⟨c, rest, rfl, hblank, hclose, hcomma⟩ := hv.value_head
      have hself : skipBlank (c :: rest) = c :: rest := (Blank.done _).skipBlank_eq_cons hblank
      have hrest := ihi (x :: acc)
      rw [List.reverse_cons, List.append_assoc, List.singleton_append] at hrest
      rw [readElements_first (hb.skipBlank_eq_cons hblank) hclose hcomma, ihv _ hself]
      exact hrest
  | @itemsNext room cs next v after r x xs hb hb' hv _ ihv ihi =>
      intro acc
      obtain ⟨c, rest, rfl, hblank, hclose, -⟩ := hv.value_head
      have hrest := ihi (x :: acc)
      rw [List.reverse_cons, List.append_assoc, List.singleton_append] at hrest
      rw [readElements_next (hb.skipBlank_eq_cons (by decide)) (hb'.skipBlank_eq_cons hblank) hclose,
        ihv _ (hb'.skipBlank_eq_cons hblank)]
      exact hrest
  | fieldsEnd hb =>
      intro acc
      rw [readMembers_close (hb.skipBlank_eq_cons (by decide)), List.reverse_nil, List.nil_append]
  | @fieldsNext room first cs key afterKey colon v after r name x pairs hlead hkey hcolon hcb hv _
      ihv ihf =>
      intro acc
      obtain ⟨c, rest, hb, hclose, hsep, hk⟩ := hlead.keyText
      have hrest := ihf ((name, x) :: acc)
      rw [← List.singleton_append, ← List.append_assoc, ← List.reverse_cons] at hrest
      rw [readMembers_member hb hclose hsep hk (readString_eq_ok_iff.mpr hkey)
        (hcolon.skipBlank_eq_cons (by decide)), ihv _ (hcb.skipBlank_eq_valueText hv)]
      exact hrest

/-- Reading a value is reading past blanks and a value within the room, as that value. -/
theorem readValue_eq_ok_iff {room : Nat} {cs r : List Char} {x : Value} :
    (readValue room cs).map (Prod.map id Subtype.val) = .ok (x, r) ↔
      ∃ v, Blank cs v ∧ ValueText .value room v x r :=
  ⟨fun h => ⟨_, Blank.skipBlank_self cs, valueText_of_readValue h⟩,
    fun ⟨_, hb, hv⟩ => hv.reads cs (hb.skipBlank_eq_valueText hv)⟩

/-- Reading an object's members gives the pairs written, a later key winning. -/
theorem readMembers_eq_ok_iff {room : Nat} {cs r : List Char} {acc : List (String × Value)}
    {ms : Members} {first : Bool} :
    (readMembers room cs acc first).map (Prod.map id Subtype.val) = .ok (ms, r) ↔
      ∃ pairs : List (String × Value), ValueText (.fields first) room cs pairs r ∧
        ms = Members.ofLatestFirst (pairs.reverse ++ acc) := by
  constructor
  · exact valueText_of_readMembers
  · rintro ⟨pairs, hpairs, rfl⟩
    exact hpairs.reads acc

/-- A map from strings is read from an object, within the room, as its pairs, a later key
winning. -/
theorem readStringMap_eq_ok_iff {room : Nat} {cs r : List Char} {ms : Members} :
    (readStringMap room cs).map (Prod.map id Subtype.val) = .ok (ms, r) ↔
      ∃ inner, ∃ pairs : List (String × Value), Blank cs ('{' :: inner) ∧ 1 < room ∧
        ValueText (.fields true) (room - 1) inner pairs r ∧ ms = Members.ofPairs pairs := by
  constructor
  · intro h
    unfold readStringMap at h
    split at h
    · cases h
    · rename_i inner hb
      split at h
      · cases h
      · rename_i hroom
        -- the members read after the brace, widened to the whole text
        have hm : (readMembers (room - 1) inner [] true).map (Prod.map id Subtype.val) =
            .ok (ms, r) := by
          revert h
          rcases readMembers (room - 1) inner [] true with f | ⟨ms', r'⟩ <;>
            simp [Except.map, Prod.map, Shorter.widen]
        obtain ⟨pairs, hpairs, rfl⟩ := readMembers_eq_ok_iff.mp hm
        exact ⟨inner, pairs, Blank.of_skipBlank_eq hb, Nat.lt_of_not_le hroom, hpairs, by
          rw [List.append_nil]
          rfl⟩
    · cases h
  · rintro ⟨inner, pairs, hb, hroom, hpairs, rfl⟩
    have hread := hpairs.reads []
    rw [List.append_nil] at hread
    unfold readStringMap
    split <;> rename_i heq <;> rw [hb.skipBlank_eq_cons (by decide)] at heq <;>
      simp only [List.cons.injEq, reduceCtorEq, true_and] at heq
    all_goals first
      | (obtain ⟨rfl, -⟩ := heq; contradiction)
      | skip
    subst heq
    simp only [if_neg (Nat.not_le_of_lt hroom)]
    revert hread
    rcases readMembers (room - 1) inner [] true with f | ⟨ms', r'⟩ <;>
      simp [Except.map, Prod.map, Shorter.widen, Members.ofPairs]

end AccessRequest.Json
