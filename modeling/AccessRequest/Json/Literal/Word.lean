import AccessRequest.Json.Error

/-!
Blanks between JSON tokens, and the words `null`, `true` and `false`. A reader works on the
characters left to read and returns what is left after it; its faults are tied to that rest.
-/

namespace AccessRequest.Json

/-- The characters JSON allows between tokens: space, line feed, tab and carriage return. -/
def isBlank (c : Char) : Bool :=
  c = ' ' || c = '\n' || c = '\t' || c = '\r'

/-- The text after its leading blanks. -/
def skipBlank : List Char → List Char
  | [] => []
  | c :: rest => if isBlank c then skipBlank rest else c :: rest

theorem skipBlank_length_le (cs : List Char) : (skipBlank cs).length ≤ cs.length := by
  induction cs with
  | nil => simp [skipBlank]
  | cons c rest ih =>
    unfold skipBlank
    split
    · exact Nat.le_succ_of_le ih
    · exact Nat.le_refl _

/-- The rest of a word whose first letter has been read: every further letter must follow. A
text that ends early ends a value too soon; another character is no word. -/
def expectWord : List Char → List Char → Except Fault (List Char)
  | [], cs => .ok cs
  | _ :: _, [] => .error (Fault.here .eofWhileParsingValue [])
  | w :: ws, c :: cs =>
    if c = w then expectWord ws cs else .error (Fault.ahead .expectedSomeIdent (c :: cs))

theorem expectWord_length_le {ws cs rest : List Char} (h : expectWord ws cs = .ok rest) :
    rest.length ≤ cs.length := by
  induction ws generalizing cs with
  | nil => simp [expectWord] at h; simp [h]
  | cons w ws ih =>
    cases cs with
    | nil => simp [expectWord] at h
    | cons c cs =>
      simp only [expectWord] at h
      split at h
      · exact Nat.le_succ_of_le (ih h)
      · simp at h

end AccessRequest.Json
