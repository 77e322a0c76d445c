import AccessRequest.Json.Error

/-!
String literals, after their opening quote. Control characters below U+0020 may not stand in a
string; a backslash starts one of the escapes `\" \\ \/ \b \f \n \r \t` or `\u` with four
hexadecimal digits. A `\u` escape of a leading surrogate must be followed at once by a `\u`
escape of a trailing one, and the pair stands for one character; a trailing surrogate alone is
refused. Four hexadecimal digits are four bytes: a text with fewer bytes left ends the string
too soon.

Skipping a string checks only its escapes' form, not surrogates, and reports a control
character before it, where reading reports it after.
-/

namespace AccessRequest.Json

/-- The value of a hexadecimal digit character. -/
def hexDigitValue? (c : Char) : Option Nat :=
  if '0' ≤ c ∧ c ≤ '9' then some (c.toNat - '0'.toNat)
  else if 'a' ≤ c ∧ c ≤ 'f' then some (c.toNat - 'a'.toNat + 10)
  else if 'A' ≤ c ∧ c ≤ 'F' then some (c.toNat - 'A'.toNat + 10)
  else none

/-- The value of four hexadecimal digits. -/
def hex4Value? : List Char → Option Nat
  | [a, b, c, d] => do
    let a ← hexDigitValue? a
    let b ← hexDigitValue? b
    let c ← hexDigitValue? c
    let d ← hexDigitValue? d
    pure (((a * 16 + b) * 16 + c) * 16 + d)
  | _ => none

/-- The four hexadecimal digits of a `\u` escape: their value and the text after them. With
fewer than four bytes left the string ends too soon; four bytes that are not all hexadecimal
digits are an invalid escape, reported after them. -/
def readHex4 (cs : List Char) : Except Fault (Nat × List Char) :=
  if byteCount (cs.take 4) < 4 then .error (Fault.here .eofWhileParsingString [])
  else match hex4Value? (cs.take 4) with
    | some n => .ok (n, cs.drop 4)
    | none => .error ⟨.grammar .invalidEscape, some (byteCount cs - 4)⟩

theorem readHex4_length_le {cs r : List Char} {n : Nat} (h : readHex4 cs = .ok (n, r)) :
    r.length ≤ cs.length := by
  unfold readHex4 at h
  split at h
  · simp at h
  · split at h
    · simp only [Except.ok.injEq, Prod.mk.injEq] at h
      rw [← h.2, List.length_drop]
      omega
    · simp at h

/-- A leading surrogate. -/
def isLeadingSurrogate (n : Nat) : Bool := 0xD800 ≤ n && n ≤ 0xDBFF

/-- A trailing surrogate. -/
def isTrailingSurrogate (n : Nat) : Bool := 0xDC00 ≤ n && n ≤ 0xDFFF

/-- The character a `\u` escape stands for, after its `\u`: one escape outside the surrogates,
or a leading and a trailing surrogate in two escapes. -/
def readUnicodeEscape (cs : List Char) : Except Fault (Char × List Char) :=
  match readHex4 cs with
  | .error f => .error f
  | .ok (n, rest) =>
    if isTrailingSurrogate n then .error (Fault.here .loneLeadingSurrogateInHexEscape rest)
    else if !isLeadingSurrogate n then .ok (Char.ofNat n, rest)
    else
      match rest with
      | '\\' :: 'u' :: after =>
        match readHex4 after with
        | .error f => .error f
        | .ok (n2, rest2) =>
          if isTrailingSurrogate n2 then
            .ok (Char.ofNat (0x10000 + (n - 0xD800) * 0x400 + (n2 - 0xDC00)), rest2)
          else .error (Fault.here .loneLeadingSurrogateInHexEscape rest2)
      | '\\' :: c :: after => .error (Fault.ahead .unexpectedEndOfHexEscape (c :: after))
      | ['\\'] => .error (Fault.here .eofWhileParsingString [])
      | c :: after => .error (Fault.ahead .unexpectedEndOfHexEscape (c :: after))
      | [] => .error (Fault.here .eofWhileParsingString [])

theorem readUnicodeEscape_length_le {cs r : List Char} {c : Char}
    (h : readUnicodeEscape cs = .ok (c, r)) : r.length ≤ cs.length := by
  unfold readUnicodeEscape at h
  split at h
  · simp at h
  · rename_i n rest hx
    have h1 := readHex4_length_le hx
    split at h
    · simp at h
    · split at h
      · simp only [Except.ok.injEq, Prod.mk.injEq] at h
        rw [← h.2]
        exact h1
      · split at h
        · rename_i after
          split at h
          · simp at h
          · rename_i n2 rest2 hx2
            have h2 := readHex4_length_le hx2
            split at h
            · simp only [Except.ok.injEq, Prod.mk.injEq] at h
              rw [← h.2]
              simp only [List.length_cons] at h1
              omega
            · simp at h
        all_goals simp at h

/-- The character an escape stands for, after its backslash, and the text after it. -/
def readEscape : List Char → Except Fault (Char × List Char)
  | [] => .error (Fault.here .eofWhileParsingString [])
  | '"' :: rest => .ok ('"', rest)
  | '\\' :: rest => .ok ('\\', rest)
  | '/' :: rest => .ok ('/', rest)
  | 'b' :: rest => .ok ('\x08', rest)
  | 'f' :: rest => .ok ('\x0c', rest)
  | 'n' :: rest => .ok ('\n', rest)
  | 'r' :: rest => .ok ('\r', rest)
  | 't' :: rest => .ok ('\t', rest)
  | 'u' :: rest => readUnicodeEscape rest
  | c :: rest => .error (Fault.ahead .invalidEscape (c :: rest))

theorem readEscape_length_lt {cs r : List Char} {c : Char} (h : readEscape cs = .ok (c, r)) :
    r.length < cs.length := by
  unfold readEscape at h
  split at h
  case h_10 rest =>
    have := readUnicodeEscape_length_le h
    simp only [List.length_cons]
    omega
  all_goals first
    | (simp at h; done)
    | (simp only [Except.ok.injEq, Prod.mk.injEq] at h
       obtain ⟨_, rfl⟩ := h
       simp)

/-- A character below U+0020, which a string may not hold as it is. -/
def isControl (c : Char) : Bool := c.toNat < 0x20

/-- The characters of a string up to its closing quote, after `acc` (held reversed), and the
text after the quote. -/
def readStringBody (acc : List Char) (cs : List Char) : Except Fault (String × List Char) :=
  match cs with
  | [] => .error (Fault.here .eofWhileParsingString [])
  | '"' :: rest => .ok (String.ofList acc.reverse, rest)
  | '\\' :: rest =>
    match h : readEscape rest with
    | .error f => .error f
    | .ok (c, after) =>
      have := readEscape_length_lt h
      readStringBody (c :: acc) after
  | c :: rest =>
    if isControl c then .error (Fault.here .controlCharacterWhileParsingString rest)
    else readStringBody (c :: acc) rest
termination_by cs.length

/-- A string literal after its opening quote: its text and what follows the closing quote. -/
def readString (cs : List Char) : Except Fault (String × List Char) := readStringBody [] cs

/-- A string that was read took at least its closing quote. -/
theorem readStringBody_length_lt {acc cs r : List Char} {s : String}
    (h : readStringBody acc cs = .ok (s, r)) : r.length < cs.length := by
  fun_induction readStringBody acc cs with
  | case1 | case3 | case5 => simp at h
  | case2 => simp only [Except.ok.injEq, Prod.mk.injEq] at h; rw [← h.2]; simp
  | case4 _ _ _ _ _ shorter ih =>
    have := ih h
    simp only [List.length_cons]
    omega
  | case6 _ _ _ _ _ _ ih =>
    have := ih h
    simp only [List.length_cons]
    omega

theorem readString_length_lt {cs r : List Char} {s : String} (h : readString cs = .ok (s, r)) :
    r.length < cs.length :=
  readStringBody_length_lt h

/-- The form of an escape after its backslash, without its meaning. -/
def skipEscape : List Char → Except Fault (List Char)
  | [] => .error (Fault.here .eofWhileParsingString [])
  | c :: rest =>
    if c = '"' ∨ c = '\\' ∨ c = '/' ∨ c = 'b' ∨ c = 'f' ∨ c = 'n' ∨ c = 'r' ∨ c = 't' then
      .ok rest
    else if c = 'u' then (readHex4 rest).map Prod.snd
    else .error (Fault.ahead .invalidEscape (c :: rest))

theorem skipEscape_length_lt {cs r : List Char} (h : skipEscape cs = .ok r) :
    r.length < cs.length := by
  unfold skipEscape at h
  split at h
  · simp at h
  · rename_i c rest
    split at h
    · simp only [Except.ok.injEq] at h
      rw [← h]
      simp
    · split at h
      · cases hx : readHex4 rest with
        | error f => simp [hx, Except.map] at h
        | ok p =>
          have := readHex4_length_le hx
          simp only [hx, Except.map, Except.ok.injEq] at h
          rw [← h]
          simp only [List.length_cons]
          omega
      · simp at h

/-- A string's form up to its closing quote, and the text after the quote. -/
def skipString (cs : List Char) : Except Fault (List Char) :=
  match cs with
  | [] => .error (Fault.here .eofWhileParsingString [])
  | '"' :: rest => .ok rest
  | '\\' :: rest =>
    match h : skipEscape rest with
    | .error f => .error f
    | .ok after =>
      have := skipEscape_length_lt h
      skipString after
  | c :: rest =>
    if isControl c then .error (Fault.here .controlCharacterWhileParsingString (c :: rest))
    else skipString rest
termination_by cs.length

/-- A skipped string took at least its closing quote. -/
theorem skipString_length_lt {cs r : List Char} (h : skipString cs = .ok r) :
    r.length < cs.length := by
  fun_induction skipString cs with
  | case1 | case3 | case5 => simp at h
  | case2 => simp only [Except.ok.injEq] at h; rw [← h]; simp
  | case4 _ _ _ _ ih =>
    have := ih h
    simp only [List.length_cons]
    omega
  | case6 _ _ _ _ _ ih =>
    have := ih h
    simp only [List.length_cons]
    omega

end AccessRequest.Json
