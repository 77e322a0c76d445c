import AccessRequest.Json.Read

/-!
The grammar of JSON text (RFC 8259), as relations between a text and what is left of it after
the part the relation describes: `R cs r` says that `cs` starts with an `R` and `r` follows it.
Blanks are spaces, tabs, line feeds and carriage returns. A string's body runs to its closing
quote; a character below U+0020, a quote or a backslash stands in it only escaped. A number is an
optional minus, an integer part with no leading zero, an optional fraction and an optional
exponent. Arrays and objects are written with their separators and blanks between tokens.

Two readings of a string are given: `StrForm` is the grammar's own, where `\u` is followed by
any four hexadecimal digits, and `StrRest` also says what the string stands for, where a `\u`
escape of a surrogate must be a leading one followed at once by a trailing one.
-/

namespace AccessRequest.Json

/-- `cs` starts with blanks, and `r` is what follows them. -/
inductive Blank : List Char → List Char → Prop
  | done (r : List Char) : Blank r r
  | blank {c : Char} {cs r : List Char} : isBlank c = true → Blank cs r → Blank (c :: cs) r

namespace Blank

/-- What `skipBlank` skips is blanks. -/
theorem skipBlank_self (cs : List Char) : Blank cs (skipBlank cs) := by
  induction cs with
  | nil => exact .done []
  | cons c rest ih =>
      unfold skipBlank
      split
      · exact .blank ‹_› ih
      · exact .done _

/-- Blanks before a text that starts with no blank are all that `skipBlank` skips. -/
theorem skipBlank_eq {cs r : List Char} (h : Blank cs r)
    (hr : ∀ c ∈ r.head?, isBlank c = false) : skipBlank cs = r := by
  induction h with
  | done r =>
      cases r with
      | nil => rfl
      | cons c rest => simp [skipBlank, hr c rfl]
  | blank hb _ ih => simp [skipBlank, hb, ih hr]

theorem skipBlank_eq_cons {cs r : List Char} {c : Char} (h : Blank cs (c :: r))
    (hc : isBlank c = false) : skipBlank cs = c :: r :=
  skipBlank_eq h (by simpa using hc)

theorem skipBlank_eq_nil {cs : List Char} (h : Blank cs []) : skipBlank cs = [] :=
  skipBlank_eq h (by simp)

theorem of_skipBlank_eq {cs r : List Char} (h : skipBlank cs = r) : Blank cs r :=
  h ▸ skipBlank_self cs

theorem trans {a b c : List Char} (hab : Blank a b) (hbc : Blank b c) : Blank a c := by
  induction hab with
  | done => exact hbc
  | blank hb _ ih => exact .blank hb (ih hbc)

end Blank

/-- What may follow a number without extending it: the end of the text, a blank, a comma or a
closing bracket or brace. -/
def Delimited : List Char → Prop
  | [] => True
  | c :: _ => isBlank c = true ∨ c = ',' ∨ c = ']' ∨ c = '}'

/-- The character an escape of one letter stands for. -/
def shortEscape : Char → Option Char
  | '"' => some '"'
  | '\\' => some '\\'
  | '/' => some '/'
  | 'b' => some '\x08'
  | 'f' => some '\x0c'
  | 'n' => some '\n'
  | 'r' => some '\r'
  | 't' => some '\t'
  | _ => none

/-- An escape after its backslash, the character it stands for, and the text after it: a letter,
a `\u` escape of a code point outside the surrogates, or a leading and a trailing surrogate in
two `\u` escapes. -/
inductive Escape : List Char → Char → List Char → Prop
  | short {e c : Char} {r : List Char} : shortEscape e = some c → Escape (e :: r) c r
  | unicode {a b c d : Char} {n : Nat} {r : List Char} :
      hex4Value? [a, b, c, d] = some n → isLeadingSurrogate n = false →
      isTrailingSurrogate n = false → Escape ('u' :: a :: b :: c :: d :: r) (Char.ofNat n) r
  | pair {a b c d a' b' c' d' : Char} {hi lo : Nat} {r : List Char} :
      hex4Value? [a, b, c, d] = some hi → isLeadingSurrogate hi = true →
      hex4Value? [a', b', c', d'] = some lo → isTrailingSurrogate lo = true →
      Escape ('u' :: a :: b :: c :: d :: '\\' :: 'u' :: a' :: b' :: c' :: d' :: r)
        (Char.ofNat (0x10000 + (hi - 0xD800) * 0x400 + (lo - 0xDC00))) r

/-- A string's body through its closing quote, the characters it stands for, and the text after
the quote. -/
inductive StrRest : List Char → List Char → List Char → Prop
  | close {r : List Char} : StrRest ('"' :: r) [] r
  | plain {c : Char} {cs s r : List Char} : isControl c = false → c ≠ '"' → c ≠ '\\' →
      StrRest cs s r → StrRest (c :: cs) (c :: s) r
  | escape {c : Char} {cs after s r : List Char} : Escape cs c after → StrRest after s r →
      StrRest ('\\' :: cs) (c :: s) r

/-- An escape's form after its backslash: a letter, or `u` and four hexadecimal digits. -/
inductive EscapeForm : List Char → List Char → Prop
  | short {e c : Char} {r : List Char} : shortEscape e = some c → EscapeForm (e :: r) r
  | unicode {a b c d : Char} {n : Nat} {r : List Char} :
      hex4Value? [a, b, c, d] = some n → EscapeForm ('u' :: a :: b :: c :: d :: r) r

/-- A string's body through its closing quote as the grammar allows it, and the text after it. -/
inductive StrForm : List Char → List Char → Prop
  | close {r : List Char} : StrForm ('"' :: r) r
  | plain {c : Char} {cs r : List Char} : isControl c = false → c ≠ '"' → c ≠ '\\' →
      StrForm cs r → StrForm (c :: cs) r
  | escape {cs after r : List Char} : EscapeForm cs after → StrForm after r →
      StrForm ('\\' :: cs) r

/-- A run of decimal digits, possibly empty. -/
inductive DigitRun : List Char → List Char → Prop
  | done (r : List Char) : DigitRun r r
  | digit {d : Char} {cs r : List Char} : d.isDigit = true → DigitRun cs r → DigitRun (d :: cs) r

/-- A number's integer part: a single zero, or a digit from 1 to 9 and more digits. -/
inductive IntPart : List Char → List Char → Prop
  | zero {r : List Char} : IntPart ('0' :: r) r
  | digits {d : Char} {cs r : List Char} : d.isDigit = true → d ≠ '0' → DigitRun cs r →
      IntPart (d :: cs) r

/-- A number's optional fraction: a point and at least one digit. -/
inductive FracPart : List Char → List Char → Prop
  | none (r : List Char) : FracPart r r
  | some {d : Char} {cs r : List Char} : d.isDigit = true → DigitRun cs r →
      FracPart ('.' :: d :: cs) r

/-- A number's optional exponent: `e` or `E`, an optional sign and at least one digit. -/
inductive ExpPart : List Char → List Char → Prop
  | none (r : List Char) : ExpPart r r
  | unsigned {e d : Char} {cs r : List Char} : (e = 'e' ∨ e = 'E') → d.isDigit = true →
      DigitRun cs r → ExpPart (e :: d :: cs) r
  | signed {e s d : Char} {cs r : List Char} : (e = 'e' ∨ e = 'E') → (s = '+' ∨ s = '-') →
      d.isDigit = true → DigitRun cs r → ExpPart (e :: s :: d :: cs) r

/-- A number after its optional minus. -/
def Unsigned (cs r : List Char) : Prop :=
  ∃ afterInt afterFrac, IntPart cs afterInt ∧ FracPart afterInt afterFrac ∧ ExpPart afterFrac r

/-- The parts of JSON text that nest: a value, the elements of an array after its first one, and
the members of an object after its first one. -/
inductive Part where
  | value
  | items
  | fields

/-- Well-formed JSON text. A value has no blanks around it; `items` is what follows an array's
element, through the closing bracket, and `fields` what follows an object's member, through the
closing brace. -/
inductive Form : Part → List Char → List Char → Prop
  | nullWord {r : List Char} : Form .value ('n' :: 'u' :: 'l' :: 'l' :: r) r
  | trueWord {r : List Char} : Form .value ('t' :: 'r' :: 'u' :: 'e' :: r) r
  | falseWord {r : List Char} : Form .value ('f' :: 'a' :: 'l' :: 's' :: 'e' :: r) r
  | number {cs r : List Char} : Unsigned cs r → Form .value cs r
  | negative {cs r : List Char} : Unsigned cs r → Form .value ('-' :: cs) r
  | string {cs r : List Char} : StrForm cs r → Form .value ('"' :: cs) r
  | emptyArray {cs r : List Char} : Blank cs (']' :: r) → Form .value ('[' :: cs) r
  | array {cs v after r : List Char} : Blank cs v → Form .value v after → Form .items after r →
      Form .value ('[' :: cs) r
  | emptyObject {cs r : List Char} : Blank cs ('}' :: r) → Form .value ('{' :: cs) r
  | object {cs key afterKey colon v after r : List Char} : Blank cs ('"' :: key) →
      StrForm key afterKey → Blank afterKey (':' :: colon) → Blank colon v → Form .value v after →
      Form .fields after r → Form .value ('{' :: cs) r
  | itemsEnd {cs r : List Char} : Blank cs (']' :: r) → Form .items cs r
  | itemsNext {cs next v after r : List Char} : Blank cs (',' :: next) → Blank next v →
      Form .value v after → Form .items after r → Form .items cs r
  | fieldsEnd {cs r : List Char} : Blank cs ('}' :: r) → Form .fields cs r
  | fieldsNext {cs next key afterKey colon v after r : List Char} : Blank cs (',' :: next) →
      Blank next ('"' :: key) → StrForm key afterKey → Blank afterKey (':' :: colon) →
      Blank colon v → Form .value v after → Form .fields after r → Form .fields cs r

end AccessRequest.Json
