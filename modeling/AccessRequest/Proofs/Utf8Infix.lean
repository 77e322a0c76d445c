/-!
Text that occurs in text, on characters and on UTF-8 bytes alike. A character's encoding starts
with a byte that is no continuation byte, goes on with continuation bytes only, and its first
byte fixes its length. So wherever the encoding of a non-empty text occurs among the bytes of
another, it starts on a character boundary and spans whole characters: the byte search and the
character search find the same occurrences.
-/

namespace AccessRequest.Utf8

/-- A continuation byte, `10xxxxxx`: the second, third or fourth byte of a character. -/
def IsContinuation (b : UInt8) : Prop := 0x80 ≤ b.toNat ∧ b.toNat < 0xC0

/-- A character's encoding: a first byte whose range gives the number of continuation bytes
after it. -/
theorem utf8EncodeChar_shape (c : Char) :
    ∃ b rest, String.utf8EncodeChar c = b :: rest ∧ (∀ x ∈ rest, IsContinuation x) ∧
      (rest.length = 0 ∧ b.toNat < 0x80 ∨ rest.length = 1 ∧ 0xC0 ≤ b.toNat ∧ b.toNat < 0xE0 ∨
        rest.length = 2 ∧ 0xE0 ≤ b.toNat ∧ b.toNat < 0xF0 ∨ rest.length = 3 ∧ 0xF0 ≤ b.toNat) := by
  unfold String.utf8EncodeChar
  generalize c.val.toNat = v
  simp only
  -- one case per encoding length, each byte's range read off its arithmetic
  split
  · refine ⟨_, _, rfl, by simp, ?_⟩
    simp
    omega
  · split
    · refine ⟨_, _, rfl, ?_, ?_⟩ <;> simp [IsContinuation] <;> omega
    · split
      · refine ⟨_, _, rfl, ?_, ?_⟩ <;> simp [IsContinuation] <;> omega
      · refine ⟨_, _, rfl, ?_, ?_⟩ <;> simp [IsContinuation] <;> omega

theorem utf8EncodeChar_injective {c d : Char}
    (h : String.utf8EncodeChar c = String.utf8EncodeChar d) : c = d := by
  have hc := List.utf8DecodeChar?_utf8Encode_singleton (c := c)
  rw [List.utf8Encode_singleton, h, ← List.utf8Encode_singleton,
    List.utf8DecodeChar?_utf8Encode_singleton] at hc
  exact (Option.some.inj hc).symm

/-- Two characters whose encodings start the same bytes are the same: equal first bytes give
equal lengths. -/
theorem eq_of_utf8EncodeChar_append_eq {c d : Char} {X Y : List UInt8}
    (h : String.utf8EncodeChar c ++ X = String.utf8EncodeChar d ++ Y) : c = d := by
  obtain ⟨b, rest, hc, -, hrange⟩ := utf8EncodeChar_shape c
  obtain ⟨b', rest', hd, -, hrange'⟩ := utf8EncodeChar_shape d
  rw [hc, hd, List.cons_append, List.cons_append, List.cons.injEq] at h
  obtain ⟨rfl, h⟩ := h
  have hlen : rest.length = rest'.length := by omega
  have hrest := (List.append_inj h hlen).1
  exact utf8EncodeChar_injective (by rw [hc, hd, hrest])

/-- Bytes of an encoded text that start with no continuation byte start on a character
boundary: what comes before them encodes the characters before that boundary. The induction is
on the characters; a boundary inside the first character's encoding would put a continuation byte
first. -/
theorem exists_split_of_append_cons {cs : List Char} {A X : List UInt8} {x : UInt8}
    (hx : ¬ IsContinuation x) (h : A ++ x :: X = cs.flatMap String.utf8EncodeChar) :
    ∃ pre rest, cs = pre ++ rest ∧ A = pre.flatMap String.utf8EncodeChar := by
  induction cs generalizing A with
  | nil => simp at h
  | cons c cs ih =>
      cases A with
      | nil => exact ⟨[], c :: cs, rfl, rfl⟩
      | cons a A =>
          obtain ⟨b, rest, hc, hcont, -⟩ := utf8EncodeChar_shape c
          rw [List.flatMap_cons, hc, List.cons_append, List.cons_append, List.cons.injEq] at h
          obtain ⟨rfl, h⟩ := h
          rcases List.append_eq_append_iff.mp h with ⟨tail, hrest, hX⟩ | ⟨more, hA, hcs⟩
          · cases tail with
            | nil => exact ⟨[c], cs, rfl, by simp [hc, hrest]⟩
            | cons y tail =>
                rw [List.cons_append, List.cons.injEq] at hX
                obtain ⟨rfl, -⟩ := hX
                exact absurd (hcont x (by simp [hrest])) hx
          · obtain ⟨pre, r, rfl, hpre⟩ := ih hcs.symm
            exact ⟨c :: pre, r, rfl, by simp [hc, hA, hpre]⟩

/-- An encoded text that starts an encoded text is the encoding of its first characters. -/
theorem prefix_of_flatMap_append {ds cs : List Char} {B : List UInt8}
    (h : ds.flatMap String.utf8EncodeChar ++ B = cs.flatMap String.utf8EncodeChar) :
    ds <+: cs := by
  induction ds generalizing cs with
  | nil => exact List.nil_prefix
  | cons d ds ih =>
      cases cs with
      | nil =>
          obtain ⟨b, rest, hd, -⟩ := utf8EncodeChar_shape d
          simp [hd] at h
      | cons c cs =>
          simp only [List.flatMap_cons, List.append_assoc] at h
          obtain rfl := eq_of_utf8EncodeChar_append_eq h
          exact (List.prefix_cons_inj d).mpr (ih (List.append_cancel_left h))

/-- Characters occur in characters exactly when their encoding occurs in the encoding. -/
theorem infix_iff_flatMap_utf8EncodeChar {ds cs : List Char} :
    ds <:+: cs ↔ ds.flatMap String.utf8EncodeChar <:+: cs.flatMap String.utf8EncodeChar := by
  constructor
  · rintro ⟨s, t, rfl⟩
    exact ⟨s.flatMap String.utf8EncodeChar, t.flatMap String.utf8EncodeChar,
      by simp [List.flatMap_append]⟩
  · rintro ⟨A, B, h⟩
    cases ds with
    | nil => exact List.nil_infix
    | cons d ds =>
        obtain ⟨b, rest, hd, -, hrange⟩ := utf8EncodeChar_shape d
        have hsplit : A ++ b :: (rest ++ ds.flatMap String.utf8EncodeChar ++ B) =
            cs.flatMap String.utf8EncodeChar := by
          rw [← h]
          simp [hd]
        have hb : ¬ IsContinuation b := by
          simp only [IsContinuation]
          omega
        -- the occurrence starts on a boundary, and from there spans whole characters
        obtain ⟨pre, r, rfl, rfl⟩ := exists_split_of_append_cons hb hsplit
        rw [List.flatMap_append, List.append_assoc] at h
        obtain ⟨t, rfl⟩ := prefix_of_flatMap_append (List.append_cancel_left h)
        exact ⟨pre, t, by simp⟩

/-- The UTF-8 bytes of a text are its characters' encodings one after the other. -/
theorem toUTF8_toList (s : String) :
    s.toUTF8.data.toList = s.toList.flatMap String.utf8EncodeChar := by
  rw [String.toUTF8_eq_toByteArray, ← String.utf8Encode_toList, List.utf8Encode,
    List.toList_data_toByteArray]

/-- A text occurs in another as characters exactly when it occurs in it as UTF-8 bytes. -/
theorem infix_iff_toUTF8_infix (m raw : String) :
    m.toList <:+: raw.toList ↔ m.toUTF8.data.toList <:+: raw.toUTF8.data.toList := by
  rw [toUTF8_toList, toUTF8_toList]
  exact infix_iff_flatMap_utf8EncodeChar

end AccessRequest.Utf8
