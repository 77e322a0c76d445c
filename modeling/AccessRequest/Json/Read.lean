import AccessRequest.Json.Literal.Number
import AccessRequest.Json.Literal.String

/-!
Reading and skipping whole JSON values.

`readValue room` reads one value with at most `room - 1` levels of arrays and objects, so a
container opened with `room = 1` is `recursion limit exceeded`, reported at its bracket. In an
array, elements are separated by commas; a comma before the closing bracket is a trailing comma,
and so it is in an object, whose members are a string key, a colon and a value. An object
keeps its members sorted by key, and a later member of a key replaces an earlier one.

`skipValue` checks a value's form without building it and without a nesting limit; its faults
differ from reading's where the text ends early or a comma trails.

Each function takes the text left to read and gives back the text after what it read.
-/

namespace AccessRequest.Json

theorem skipBlank_cons_length {cs rest : List Char} {c : Char} (h : skipBlank cs = c :: rest) :
    rest.length < cs.length := by
  have := skipBlank_length_le cs
  rw [h] at this
  simp at this
  omega

theorem skipBlank_cons_length_le {cs rest : List Char} {c : Char} (h : skipBlank cs = c :: rest) :
    rest.length + 1 ≤ cs.length := by
  have := skipBlank_length_le cs
  rw [h] at this
  simpa using this

/-- The text left after a reader has taken at least one character of `cs`. -/
abbrev Shorter (cs : List Char) := { r : List Char // r.length < cs.length }

/-- What is left of a part of `cs` is left of `cs`. -/
def Shorter.widen {text cs : List Char} (h : text.length ≤ cs.length) (r : Shorter text) :
    Shorter cs :=
  ⟨r.val, Nat.lt_of_lt_of_le r.property h⟩

/-- A word after its first letter, the first character of `cs` after blanks. -/
def wordAt (ws : List Char) {cs rest : List Char} {c : Char} (h : skipBlank cs = c :: rest) :
    Except Fault (Shorter cs) :=
  match hw : expectWord ws rest with
  | .ok r => .ok ⟨r, Nat.lt_of_le_of_lt (expectWord_length_le hw) (skipBlank_cons_length h)⟩
  | .error f => .error f

/-- A number literal after its sign, in `text`, a part of `cs`. -/
def numberAt (positive : Bool) (text : List Char) {cs : List Char}
    (h : text.length ≤ cs.length) : Except Fault (Number × Shorter cs) :=
  match hn : readNumber positive text with
  | .ok (n, r) => .ok (n, ⟨r, Nat.lt_of_lt_of_le (readNumber_length_lt hn) h⟩)
  | .error f => .error f

/-- A number's form after its sign, in `text`, a part of `cs`. -/
def skipNumberAt (text : List Char) {cs : List Char} (h : text.length ≤ cs.length) :
    Except Fault (Shorter cs) :=
  match hn : skipNumber text with
  | .ok r => .ok ⟨r, Nat.lt_of_lt_of_le (skipNumber_length_lt hn) h⟩
  | .error f => .error f

/-- A string literal after its opening quote, in `text`, a part of `cs`. -/
def stringAt (text : List Char) {cs : List Char} (h : text.length ≤ cs.length) :
    Except Fault (String × Shorter cs) :=
  match hs : readString text with
  | .ok (s, r) => .ok (s, ⟨r, Nat.lt_of_lt_of_le (readString_length_lt hs) h⟩)
  | .error f => .error f

/-- A string's form after its opening quote, in `text`, a part of `cs`. -/
def skipStringAt (text : List Char) {cs : List Char} (h : text.length ≤ cs.length) :
    Except Fault (Shorter cs) :=
  match hs : skipString text with
  | .ok r => .ok ⟨r, Nat.lt_of_lt_of_le (skipString_length_lt hs) h⟩
  | .error f => .error f

/-- Where an object's next key starts when `c`, not a closing brace, follows the blanks: after a
comma and the blanks after it, or at `c` itself before the first key. -/
def keyText (c : Char) (rest : List Char) (first : Bool) : List Char :=
  if c = ',' ∧ !first then skipBlank rest else c :: rest

theorem keyText_length_le (c : Char) (rest : List Char) (first : Bool) :
    (keyText c rest first).length ≤ rest.length + 1 := by
  unfold keyText
  split
  · have := skipBlank_length_le rest
    omega
  · simp

/-- A member's value starts after its key's closing quote and its colon, so within `cs`. -/
theorem valueText_length_lt {cs rest keyRest afterKey valueText : List Char} {c : Char}
    {first : Bool} {key : String} (h : skipBlank cs = c :: rest)
    (hk : keyText c rest first = '"' :: keyRest) (hs : readString keyRest = .ok (key, afterKey))
    (hc : skipBlank afterKey = ':' :: valueText) : valueText.length < cs.length := by
  have h1 := skipBlank_cons_length_le h
  have h2 := keyText_length_le c rest first
  rw [hk] at h2
  have h3 := readString_length_lt hs
  have h4 := skipBlank_cons_length hc
  simp only [List.length_cons] at h2
  omega

/-- A skipped member's value starts after its key's closing quote and its colon. -/
theorem skippedValueText_length_lt {cs rest keyRest afterKey valueText : List Char} {c : Char}
    {first : Bool} (h : skipBlank cs = c :: rest) (hk : keyText c rest first = '"' :: keyRest)
    (hs : skipString keyRest = .ok afterKey) (hc : skipBlank afterKey = ':' :: valueText) :
    valueText.length < cs.length := by
  have h1 := skipBlank_cons_length_le h
  have h2 := keyText_length_le c rest first
  rw [hk] at h2
  have h3 := skipString_length_lt hs
  have h4 := skipBlank_cons_length hc
  simp only [List.length_cons] at h2
  omega

mutual

/-- One value; `room` bounds the nesting of arrays and objects. -/
def readValue (room : Nat) (cs : List Char) : Except Fault (Value × Shorter cs) :=
  match h : skipBlank cs with
  | [] => .error (Fault.ahead .eofWhileParsingValue [])
  | 'n' :: _ => (wordAt ['u', 'l', 'l'] h).map (.null, ·)
  | 't' :: _ => (wordAt ['r', 'u', 'e'] h).map (.bool true, ·)
  | 'f' :: _ => (wordAt ['a', 'l', 's', 'e'] h).map (.bool false, ·)
  | '-' :: rest =>
    (numberAt false rest (Nat.le_of_lt (skipBlank_cons_length h))).map fun (n, r) => (.number n, r)
  | '"' :: rest =>
    (stringAt rest (Nat.le_of_lt (skipBlank_cons_length h))).map fun (s, r) => (.string s, r)
  | '[' :: rest =>
    if room ≤ 1 then .error (Fault.ahead .recursionLimitExceeded ('[' :: rest))
    else
      have hr : rest.length < cs.length := skipBlank_cons_length h
      match readElements (room - 1) rest [] true with
      | .error f => .error f
      | .ok (items, r) => .ok (.array items, r.widen (Nat.le_of_lt hr))
  | '{' :: rest =>
    if room ≤ 1 then .error (Fault.ahead .recursionLimitExceeded ('{' :: rest))
    else
      have hr : rest.length < cs.length := skipBlank_cons_length h
      match readMembers (room - 1) rest [] true with
      | .error f => .error f
      | .ok (ms, r) => .ok (.object ms, r.widen (Nat.le_of_lt hr))
  | c :: rest =>
    if c.isDigit then
      (numberAt true (c :: rest) (h ▸ skipBlank_length_le cs)).map fun (n, r) => (.number n, r)
    else .error (Fault.ahead .expectedSomeValue (c :: rest))
termination_by 2 * cs.length + 1

/-- The elements of an array after its opening bracket, after `acc` (held reversed), and the
text after the closing bracket. -/
def readElements (room : Nat) (cs : List Char) (acc : List Value) (first : Bool) :
    Except Fault (List Value × Shorter cs) :=
  match h : skipBlank cs with
  | [] => .error (Fault.ahead .eofWhileParsingList [])
  | ']' :: rest => .ok (acc.reverse, ⟨rest, skipBlank_cons_length h⟩)
  | ',' :: rest =>
    if first then .error (Fault.ahead .expectedSomeValue (',' :: rest))
    else
      match skipBlank rest with
      | ']' :: after => .error (Fault.ahead .trailingComma (']' :: after))
      | [] => .error (Fault.ahead .eofWhileParsingValue [])
      | _ =>
        have hr : rest.length < cs.length := skipBlank_cons_length h
        match readValue room rest with
        | .error f => .error f
        | .ok (v, ⟨after, hafter⟩) =>
          match readElements room after (v :: acc) false with
          | .error f => .error f
          | .ok (items, r) => .ok (items, r.widen (by omega))
  | c :: rest =>
    if first then
      have hr : rest.length + 1 ≤ cs.length := skipBlank_cons_length_le h
      match readValue room (c :: rest) with
      | .error f => .error f
      | .ok (v, ⟨after, hafter⟩) =>
        have ha : after.length < cs.length := by
          simp only [List.length_cons] at hafter
          omega
        match readElements room after (v :: acc) false with
        | .error f => .error f
        | .ok (items, r) => .ok (items, r.widen (Nat.le_of_lt ha))
    else .error (Fault.ahead .expectedListCommaOrEnd (c :: rest))
termination_by 2 * cs.length + 2

/-- The members of an object after its opening brace, after the pairs `acc` read before them
(latest first), and the text after the closing brace. -/
def readMembers (room : Nat) (cs : List Char) (acc : List (String × Value)) (first : Bool) :
    Except Fault (Members × Shorter cs) :=
  match h : skipBlank cs with
  | [] => .error (Fault.ahead .eofWhileParsingObject [])
  | '}' :: rest => .ok (Members.ofLatestFirst acc, ⟨rest, skipBlank_cons_length h⟩)
  | c :: rest =>
    if c ≠ ',' ∧ !first then .error (Fault.ahead .expectedObjectCommaOrEnd (c :: rest))
    else
      match hk : keyText c rest first with
      | '"' :: keyRest =>
        match hs : readString keyRest with
        | .error f => .error f
        | .ok (key, afterKey) =>
          match hc : skipBlank afterKey with
          | ':' :: valueText =>
            have hv : valueText.length < cs.length := valueText_length_lt h hk hs hc
            match readValue room valueText with
            | .error f => .error f
            | .ok (v, ⟨after, hafter⟩) =>
              match readMembers room after ((key, v) :: acc) false with
              | .error f => .error f
              | .ok (ms, r) => .ok (ms, r.widen (by omega))
          | [] => .error (Fault.ahead .eofWhileParsingObject [])
          | d :: more => .error (Fault.ahead .expectedColon (d :: more))
      | '}' :: after => .error (Fault.ahead .trailingComma ('}' :: after))
      | [] => .error (Fault.ahead .eofWhileParsingValue [])
      | d :: more => .error (Fault.ahead .keyMustBeAString (d :: more))
termination_by 2 * cs.length + 2

end

mutual

/-- The form of one value, without building it and without a nesting limit. -/
def skipValue (cs : List Char) : Except Fault (Shorter cs) :=
  match h : skipBlank cs with
  | [] => .error (Fault.ahead .eofWhileParsingValue [])
  | 'n' :: _ => wordAt ['u', 'l', 'l'] h
  | 't' :: _ => wordAt ['r', 'u', 'e'] h
  | 'f' :: _ => wordAt ['a', 'l', 's', 'e'] h
  | '-' :: rest => skipNumberAt rest (Nat.le_of_lt (skipBlank_cons_length h))
  | '"' :: rest => skipStringAt rest (Nat.le_of_lt (skipBlank_cons_length h))
  | '[' :: rest =>
    have hr : rest.length < cs.length := skipBlank_cons_length h
    match skipElements rest true with
    | .error f => .error f
    | .ok r => .ok (r.widen (Nat.le_of_lt hr))
  | '{' :: rest =>
    have hr : rest.length < cs.length := skipBlank_cons_length h
    match skipMembers rest true with
    | .error f => .error f
    | .ok r => .ok (r.widen (Nat.le_of_lt hr))
  | c :: rest =>
    if c.isDigit then skipNumberAt (c :: rest) (h ▸ skipBlank_length_le cs)
    else .error (Fault.ahead .expectedSomeValue (c :: rest))
termination_by 2 * cs.length + 1

/-- The form of an array's elements after its opening bracket. -/
def skipElements (cs : List Char) (first : Bool) : Except Fault (Shorter cs) :=
  match h : skipBlank cs with
  | [] => .error (Fault.ahead .eofWhileParsingList [])
  | ']' :: rest => .ok ⟨rest, skipBlank_cons_length h⟩
  | ',' :: rest =>
    if first then .error (Fault.ahead .expectedSomeValue (',' :: rest))
    else
      have hr : rest.length < cs.length := skipBlank_cons_length h
      match skipValue rest with
      | .error f => .error f
      | .ok ⟨after, hafter⟩ =>
        match skipElements after false with
        | .error f => .error f
        | .ok r => .ok (r.widen (by omega))
  | c :: rest =>
    if first then
      have hr : rest.length + 1 ≤ cs.length := skipBlank_cons_length_le h
      match skipValue (c :: rest) with
      | .error f => .error f
      | .ok ⟨after, hafter⟩ =>
        have ha : after.length < cs.length := by
          simp only [List.length_cons] at hafter
          omega
        match skipElements after false with
        | .error f => .error f
        | .ok r => .ok (r.widen (Nat.le_of_lt ha))
    else .error (Fault.ahead .expectedListCommaOrEnd (c :: rest))
termination_by 2 * cs.length + 2

/-- The form of an object's members after its opening brace. -/
def skipMembers (cs : List Char) (first : Bool) : Except Fault (Shorter cs) :=
  match h : skipBlank cs with
  | [] => .error (Fault.ahead .eofWhileParsingObject [])
  | '}' :: rest => .ok ⟨rest, skipBlank_cons_length h⟩
  | c :: rest =>
    if c ≠ ',' ∧ !first then .error (Fault.ahead .expectedObjectCommaOrEnd (c :: rest))
    else
      match hk : keyText c rest first with
      | '"' :: keyRest =>
        match hs : skipString keyRest with
        | .error f => .error f
        | .ok afterKey =>
          match hc : skipBlank afterKey with
          | ':' :: valueText =>
            have hv : valueText.length < cs.length := skippedValueText_length_lt h hk hs hc
            match skipValue valueText with
            | .error f => .error f
            | .ok ⟨after, hafter⟩ =>
              match skipMembers after false with
              | .error f => .error f
              | .ok r => .ok (r.widen (by omega))
          | [] => .error (Fault.ahead .eofWhileParsingObject [])
          | d :: more => .error (Fault.ahead .expectedColon (d :: more))
      | [] => .error (Fault.ahead .eofWhileParsingObject [])
      | d :: more => .error (Fault.ahead .keyMustBeAString (d :: more))
termination_by 2 * cs.length + 2

end

/-- The fault for a value of the wrong kind where `expected` belongs, at the text `cs` that
starts with it (after blanks). A literal is read first, and its own faults win; the mismatch
is placed after it, or at the bracket of an array or object. -/
def mismatchAt (expected : String) (cs : List Char) : Fault :=
  let place := fun (found : Unexpected) (rest : List Char) =>
    (Fault.loose (.invalidType found expected)).placeAt rest
  match cs with
  | 'n' :: rest =>
    match expectWord ['u', 'l', 'l'] rest with
    | .ok r => place .unit r
    | .error f => f
  | 't' :: rest =>
    match expectWord ['r', 'u', 'e'] rest with
    | .ok r => place (.bool true) r
    | .error f => f
  | 'f' :: rest =>
    match expectWord ['a', 'l', 's', 'e'] rest with
    | .ok r => place (.bool false) r
    | .error f => f
  | '-' :: rest =>
    match readNumber false rest with
    | .ok (n, r) => place n.unexpected r
    | .error f => f
  | '"' :: rest =>
    match readString rest with
    | .ok (s, r) => place (.str s) r
    | .error f => f
  | '[' :: _ => place .seq cs
  | '{' :: _ => place .map cs
  | c :: rest =>
    if c.isDigit then
      match readNumber true (c :: rest) with
      | .ok (n, r) => place n.unexpected r
      | .error f => f
    else Fault.ahead .expectedSomeValue (c :: rest)
  | [] => Fault.ahead .expectedSomeValue []

/-- A string where a string belongs. -/
def readStringValue (cs : List Char) : Except Fault (String × List Char) :=
  match skipBlank cs with
  | [] => .error (Fault.ahead .eofWhileParsingValue [])
  | '"' :: rest => readString rest
  | c :: rest => .error (mismatchAt "a string" (c :: rest))

theorem readStringValue_length_lt {cs r : List Char} {s : String}
    (h : readStringValue cs = .ok (s, r)) : r.length < cs.length := by
  unfold readStringValue at h
  split at h
  · simp at h
  · rename_i rest hb
    have := readString_length_lt h
    have := skipBlank_cons_length hb
    omega
  · simp at h

/-- An object of any values where a map from strings belongs. -/
def readStringMap (room : Nat) (cs : List Char) : Except Fault (Members × Shorter cs) :=
  match h : skipBlank cs with
  | [] => .error (Fault.ahead .eofWhileParsingValue [])
  | '{' :: rest =>
    if room ≤ 1 then .error (Fault.ahead .recursionLimitExceeded ('{' :: rest))
    else
      match readMembers (room - 1) rest [] true with
      | .error f => .error f
      | .ok (ms, r) => .ok (ms, r.widen (Nat.le_of_lt (skipBlank_cons_length h)))
  | c :: rest => .error (mismatchAt "a map" (c :: rest))

/-- The colon between a key and its value. -/
def readColon (cs : List Char) : Except Fault (List Char) :=
  match skipBlank cs with
  | ':' :: rest => .ok rest
  | [] => .error (Fault.ahead .eofWhileParsingObject [])
  | c :: rest => .error (Fault.ahead .expectedColon (c :: rest))

theorem readColon_length_lt {cs r : List Char} (h : readColon cs = .ok r) :
    r.length < cs.length := by
  unfold readColon at h
  split at h
  · rename_i rest hb
    simp only [Except.ok.injEq] at h
    rw [← h]
    exact skipBlank_cons_length hb
  · simp at h
  · simp at h

/-- Where a mismatch inside an object is placed: after the blanks that follow, and after the
closing brace if it is next. -/
def afterObject (cs : List Char) : List Char :=
  match skipBlank cs with
  | '}' :: rest => rest
  | rest => rest

/-- Where a mismatch inside an array is placed: after the blanks that follow, and after the
closing bracket, or after a comma and the blanks after it. -/
def afterArray (cs : List Char) : List Char :=
  match skipBlank cs with
  | ']' :: rest => rest
  | ',' :: rest => skipBlank rest
  | rest => rest

/-- The end of an array whose elements a record has taken: the closing bracket. Anything else
is trailing, or a trailing comma before the bracket. -/
def closeArray (cs : List Char) : Except Fault (List Char) :=
  match skipBlank cs with
  | ']' :: rest => .ok rest
  | ',' :: rest =>
    match skipBlank rest with
    | ']' :: after => .error (Fault.ahead .trailingComma (']' :: after))
    | other => .error (Fault.ahead .trailingCharacters other)
  | [] => .error (Fault.ahead .eofWhileParsingList [])
  | c :: rest => .error (Fault.ahead .trailingCharacters (c :: rest))

/-- The next key of a record read as an object, after `first` or not: `none` at the closing
brace (not read), else the key and the text after it. -/
def readKey (cs : List Char) (first : Bool) : Except Fault (Option (String × List Char)) :=
  match skipBlank cs with
  | [] => .error (Fault.ahead .eofWhileParsingObject [])
  | '}' :: _ => .ok none
  | c :: rest =>
    if c ≠ ',' ∧ !first then .error (Fault.ahead .expectedObjectCommaOrEnd (c :: rest))
    else
      match keyText c rest first with
      | '"' :: keyRest => (readString keyRest).map some
      | '}' :: after => .error (Fault.ahead .trailingComma ('}' :: after))
      | [] => .error (Fault.ahead .eofWhileParsingValue [])
      | d :: more => .error (Fault.ahead .keyMustBeAString (d :: more))

theorem readKey_length_lt {cs afterKey : List Char} {first : Bool} {key : String}
    (h : readKey cs first = .ok (some (key, afterKey))) : afterKey.length < cs.length := by
  unfold readKey at h
  split at h
  · simp at h
  · simp at h
  · rename_i c rest _ hb
    split at h
    · simp at h
    · split at h
      · rename_i keyRest hk
        cases hs : readString keyRest with
        | error f => simp [hs, Except.map] at h
        | ok p =>
          simp only [hs, Except.map, Except.ok.injEq, Option.some.injEq] at h
          rw [h] at hs
          have h1 := skipBlank_cons_length_le hb
          have h2 := keyText_length_le c rest first
          rw [hk] at h2
          have h3 := readString_length_lt hs
          simp only [List.length_cons] at h2
          omega
      all_goals simp at h

/-- The text after a whole value: blanks only, or `trailing characters`. -/
def expectEnd (cs : List Char) : Except Fault Unit :=
  match skipBlank cs with
  | [] => .ok ()
  | c :: rest => .error (Fault.ahead .trailingCharacters (c :: rest))

/-- The nesting bound of a whole text. -/
def nestingRoom : Nat := 128

/-- The value a whole text holds, blanks around it allowed. -/
def Value.parse (text : String) : Except Error Value :=
  let cs := text.toList
  let result := do
    let (v, rest) ← readValue nestingRoom cs
    expectEnd rest.val
    pure v
  result.mapError (·.locate cs)

end AccessRequest.Json
