import AccessRequest.Proofs.Json.Skip

/-!
The tokens a record reads around its members, as grammar: a colon, a string where a string
belongs, the end of an array or of the text, and the key of an object's member. A member list is
then the text of an object's members through its closing brace, each member's value described by
a relation chosen for its name; the records read from objects are characterized by it.
-/

namespace AccessRequest.Json

/-- Locating a fault leaves a success as it is. -/
theorem mapError_eq_ok_iff {ε ε' α : Type} {f : ε → ε'} {x : Except ε α} {a : α} :
    x.mapError f = .ok a ↔ x = .ok a := by
  cases x with
  | error e => exact ⟨fun h => (nomatch h), fun h => (nomatch h)⟩
  | ok b =>
      constructor <;> intro h <;> cases h <;> rfl

theorem readColon_eq_ok_iff {cs r : List Char} : readColon cs = .ok r ↔ Blank cs (':' :: r) := by
  constructor
  · intro h
    unfold readColon at h
    split at h
    · rename_i rest hb
      cases h
      exact Blank.of_skipBlank_eq hb
    all_goals cases h
  · intro h
    rw [readColon, h.skipBlank_eq_cons (by decide)]
    rfl

theorem readStringValue_eq_ok_iff {cs r : List Char} {s : String} :
    readStringValue cs = .ok (s, r) ↔ ∃ k, Blank cs ('"' :: k) ∧ StrRest k s.toList r := by
  constructor
  · intro h
    unfold readStringValue at h
    split at h
    · cases h
    · rename_i rest hb
      exact ⟨rest, Blank.of_skipBlank_eq hb, readString_eq_ok_iff.mp h⟩
    · cases h
  · rintro ⟨k, hb, hs⟩
    rw [readStringValue, hb.skipBlank_eq_cons (by decide)]
    exact readString_eq_ok_iff.mpr hs

theorem closeArray_eq_ok_iff {cs r : List Char} : closeArray cs = .ok r ↔ Blank cs (']' :: r) := by
  constructor
  · intro h
    unfold closeArray at h
    split at h
    · rename_i rest hb
      cases h
      exact Blank.of_skipBlank_eq hb
    · split at h <;> cases h
    all_goals cases h
  · intro h
    rw [closeArray, h.skipBlank_eq_cons (by decide)]
    rfl

theorem expectEnd_eq_ok_iff {cs : List Char} : expectEnd cs = .ok () ↔ Blank cs [] := by
  constructor
  · intro h
    unfold expectEnd at h
    split at h
    · rename_i hb
      exact Blank.of_skipBlank_eq hb
    · cases h
  · intro h
    rw [expectEnd, h.skipBlank_eq_nil]

/-- A whole text is read when its front is, with only blanks after it. -/
theorem front_bind_expectEnd_eq_ok_iff {α : Type} {front : Except Fault (α × List Char)} {a : α} :
    (front.bind fun p => (expectEnd p.2).bind fun _ => .ok p.1) = .ok a ↔
      ∃ r, front = .ok (a, r) ∧ Blank r [] := by
  constructor
  · intro h
    cases front with
    | error f => cases h
    | ok p =>
        obtain ⟨b, rest⟩ := p
        cases he : expectEnd rest with
        | error f => simp [Except.bind, he] at h
        | ok u =>
            simp only [Except.bind, he, Except.ok.injEq] at h
            exact ⟨rest, by rw [h], expectEnd_eq_ok_iff.mp he⟩
  · rintro ⟨r, rfl, hend⟩
    simp [Except.bind, expectEnd_eq_ok_iff.mpr hend]

/-! ### Keys -/

/-- Where a member's key starts: after blanks before the first member, and after blanks, a comma
and blanks before any other. -/
def KeyLead : Bool → List Char → List Char → Prop
  | true, cs, k => Blank cs k
  | false, cs, k => ∃ m, Blank cs (',' :: m) ∧ Blank m k

/-- Where `keyText` finds a key is where the separator before it leads. -/
theorem keyLead_of_keyText {cs rest k : List Char} {c : Char} {first : Bool}
    (hb : skipBlank cs = c :: rest) (hsep : ¬ (c ≠ ',' ∧ !first))
    (hk : keyText c rest first = '"' :: k) : KeyLead first cs ('"' :: k) := by
  cases first with
  | true =>
      rw [keyText_true] at hk
      rw [← hk]
      exact Blank.of_skipBlank_eq hb
  | false =>
      -- after a member, the separator is a comma
      have hcomma : c = ',' := by simpa using hsep
      subst hcomma
      rw [keyText_comma] at hk
      exact ⟨rest, Blank.of_skipBlank_eq hb, Blank.of_skipBlank_eq hk⟩

/-- A key after its separator is where `keyText` looks for it. -/
theorem KeyLead.keyText {cs k : List Char} {first : Bool} (h : KeyLead first cs ('"' :: k)) :
    ∃ c rest, skipBlank cs = c :: rest ∧ c ≠ '}' ∧ ¬ (c ≠ ',' ∧ !first) ∧
      keyText c rest first = '"' :: k := by
  cases first with
  | true => exact ⟨'"', k, Blank.skipBlank_eq_cons h (by decide), by decide, by decide, keyText_true _ _⟩
  | false =>
      obtain ⟨m, hcomma, hkey⟩ := h
      exact ⟨',', m, hcomma.skipBlank_eq_cons (by decide), by decide, by decide,
        (keyText_comma m).trans (hkey.skipBlank_eq_cons (by decide))⟩

theorem afterObject_of_close {cs r : List Char} (h : Blank cs ('}' :: r)) : afterObject cs = r := by
  rw [afterObject, h.skipBlank_eq_cons (by decide)]
  rfl

theorem readKey_eq_none_iff {cs : List Char} {first : Bool} :
    readKey cs first = .ok none ↔ ∃ r, Blank cs ('}' :: r) := by
  constructor
  · intro h
    unfold readKey at h
    split at h
    · cases h
    · rename_i rest hb
      exact ⟨rest, Blank.of_skipBlank_eq hb⟩
    · rename_i c rest hclose hb
      split at h
      · cases h
      · split at h
        · cases hs : readString _ <;> rw [hs] at h <;> cases h
        all_goals cases h
  · rintro ⟨r, hb⟩
    rw [readKey, hb.skipBlank_eq_cons (by decide)]
    rfl

/-- A key is read after the separator its position asks for. -/
theorem readKey_eq_some_iff {cs r : List Char} {first : Bool} {key : String} :
    readKey cs first = .ok (some (key, r)) ↔ ∃ k, KeyLead first cs ('"' :: k) ∧
      StrRest k key.toList r := by
  constructor
  · intro h
    unfold readKey at h
    split at h
    · cases h
    · cases h
    · rename_i c rest hclose hb
      split at h
      · cases h
      · rename_i hsep
        split at h
        · rename_i keyRest hk
          cases hs : readString keyRest with
          | error f =>
              rw [hs] at h
              cases h
          | ok p =>
              rw [hs] at h
              cases h
              exact ⟨keyRest, keyLead_of_keyText hb hsep hk, readString_eq_ok_iff.mp hs⟩
        all_goals cases h
  · rintro ⟨k, hlead, hs⟩
    obtain ⟨c, rest, hb, hclose, hsep, hk⟩ := hlead.keyText
    rw [readKey, hb]
    simp [hk, readString_eq_ok_iff.mpr hs, Except.map]
    simpa using hsep

/-! ### Members of an object -/

/-- The members of an object from `cs` through its closing brace, after its first member or not:
each key a string, then a colon and a value that `Member` describes for that key's name. The
names are listed in order, and `r` follows the brace. -/
inductive MembersText (Member : String → List Char → List Char → Prop) :
    Bool → List Char → List String → List Char → Prop
  | close {first : Bool} {cs r : List Char} : Blank cs ('}' :: r) → MembersText Member first cs [] r
  | member {first : Bool} {cs k afterKey v after r : List Char} {name : String}
      {names : List String} : KeyLead first cs ('"' :: k) → StrRest k name.toList afterKey →
      Blank afterKey (':' :: v) → Member name v after → MembersText Member false after names r →
      MembersText Member first cs (name :: names) r

/-- What follows a member cannot extend a number. -/
theorem MembersText.delimited {Member : String → List Char → List Char → Prop} {cs r : List Char}
    {names : List String} (h : MembersText Member false cs names r) : Delimited cs := by
  cases h with
  | close hb => exact hb.delimited (by simp)
  | member hlead =>
      obtain ⟨m, hcomma, -⟩ := hlead
      exact hcomma.delimited (by simp)

end AccessRequest.Json
