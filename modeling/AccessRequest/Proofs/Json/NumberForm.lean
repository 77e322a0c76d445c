import AccessRequest.Proofs.Json.Numbers
import AccessRequest.Proofs.Json.Render

/-!
The number reader against the grammar of numbers. Reading a number and skipping one split a
text in the same place: the reader accepts a number only where skipping takes one, and where
skipping takes one the reader reads it or finds it out of range, and refuses it for no other
reason. With `skipNumber_eq_ok_iff`, where what follows cannot extend a number, the reader reads
exactly the texts of the grammar that are in range (`readNumber_takes_unsigned`). Integers from
`-2 ^ 63` to `2 ^ 64 - 1` are read as themselves (`readNumber_integer_in_range`).

Each state of the reader is set against the skipper's view of the text it has left: the digits
of a significand against `skipNumberTail` after them, a fraction against `skipNumberTail` from
its point, the rest of a fraction against `skipNumberTail` from its point and a first digit, and
an exponent against `skipExponent`.
-/

namespace AccessRequest.Json

/-- A reader's answer for a number whose text ends before `r`: a number followed by `r`, or a
number out of range. -/
def ReadsTo (read : Except Fault (Number × List Char)) (r : List Char) : Prop :=
  (∃ n, read = .ok (n, r)) ∨ ∃ rest, read = .error (Fault.here .numberOutOfRange rest)

/-- A reader and a skipper split a text alike: the reader accepts a number only where the
skipper takes one, leaving the same text, and where the skipper takes one the reader reads it or
finds it out of range. -/
structure Agrees (read : Except Fault (Number × List Char)) (skip : Except Fault (List Char)) :
    Prop where
  skip_of_read : ∀ {n r}, read = .ok (n, r) → skip = .ok r
  read_of_skip : ∀ {r}, skip = .ok r → ReadsTo read r

namespace Agrees

theorem of_readsTo {read : Except Fault (Number × List Char)} {r : List Char}
    (h : ReadsTo read r) : Agrees read (.ok r) where
  skip_of_read hread := by
    rcases h with ⟨n₀, h₀⟩ | ⟨rest, h₀⟩
    · rw [h₀, Except.ok.injEq, Prod.mk.injEq] at hread
      rw [hread.2]
    · rw [h₀] at hread
      cases hread
  read_of_skip hskip := by
    rw [Except.ok.injEq] at hskip
    rwa [← hskip]

theorem of_error {f g : Fault} : Agrees (.error f) (.error g) where
  skip_of_read h := by cases h
  read_of_skip h := by cases h

end Agrees

/-- Scaling a significand by a power of ten gives a number or finds it out of range. -/
theorem readsTo_fromParts (positive : Bool) (significand : Nat) (exponent : Int)
    (r : List Char) : ReadsTo ((fromParts positive significand exponent r).map (·, r)) r := by
  unfold fromParts
  dsimp only
  split
  · split
    · split
      · exact .inl ⟨_, rfl⟩
      · exact .inr ⟨r, rfl⟩
    · split
      · exact .inl ⟨_, rfl⟩
      · exact .inr ⟨r, rfl⟩
  · exact .inl ⟨_, rfl⟩

theorem readsTo_readExponentDigits (positive positiveExponent : Bool) (significand : Nat)
    (start : Int) (value : Nat) (cs : List Char) :
    ReadsTo (readExponentDigits positive positiveExponent significand start value cs)
      (cs.dropWhile Char.isDigit) := by
  induction cs generalizing value with
  | nil => exact readsTo_fromParts _ _ _ []
  | cons c rest ih =>
      simp only [readExponentDigits]
      split
      · next hc =>
          rw [List.dropWhile_cons_of_pos hc]
          split
          · split
            · exact .inr ⟨rest, rfl⟩
            · exact .inl ⟨_, rfl⟩
          · exact ih _
      · next hc =>
          rw [List.dropWhile_cons_of_neg hc]
          exact readsTo_fromParts _ _ _ _

theorem agrees_readExponent (positive : Bool) (significand : Nat) (start : Int)
    (cs : List Char) : Agrees (readExponent positive significand start cs) (skipExponent cs) := by
  unfold readExponent skipExponent
  split
  · next heq =>
      rw [heq]
      exact .of_error
  · next heq =>
      rw [heq]
      dsimp only
      split
      · exact .of_readsTo (readsTo_readExponentDigits _ _ _ _ _ _)
      · exact .of_error

/-- A further digit of a fraction does not change how the rest of it is skipped. -/
theorem skipNumberTail_point_digit {d c : Char} (hd : d.isDigit = true) (hc : c.isDigit = true)
    (rest : List Char) :
    skipNumberTail ('.' :: d :: c :: rest) = skipNumberTail ('.' :: d :: rest) := by
  rw [skipNumberTail.eq_1, skipNumberTail.eq_1, if_pos hd, if_pos hd,
    List.dropWhile_cons_of_pos hc]

theorem agrees_readAfterOverflow (positive : Bool) (significand : Nat) (exponent : Int)
    {d : Char} (hd : d.isDigit = true) (cs : List Char) :
    Agrees (readAfterOverflow positive significand exponent cs)
      (skipNumberTail ('.' :: d :: cs)) := by
  rw [readAfterOverflow, skipNumberTail.eq_1, if_pos hd]
  generalize cs.dropWhile Char.isDigit = ds
  rcases ds with _ | ⟨c, after⟩
  · exact .of_readsTo (readsTo_fromParts _ _ _ [])
  · dsimp only
    by_cases he : c = 'e' ∨ c = 'E'
    · rw [if_pos he, if_pos he]
      exact agrees_readExponent _ _ _ _
    · rw [if_neg he, if_neg he]
      exact .of_readsTo (readsTo_fromParts _ _ _ _)

/-- The rest of a fraction, once its first digit is read. -/
theorem agrees_readFraction_succ (positive : Bool) (exponent : Int) {d : Char}
    (hd : d.isDigit = true) (cs : List Char) (significand count : Nat) :
    Agrees (readFraction positive significand exponent (count + 1) cs)
      (skipNumberTail ('.' :: d :: cs)) := by
  induction cs generalizing significand count with
  | nil =>
      simp only [readFraction, Nat.add_one_ne_zero, if_false]
      rw [skipNumberTail.eq_1, if_pos hd]
      exact .of_readsTo (readsTo_fromParts _ _ _ [])
  | cons c rest ih =>
      simp only [readFraction]
      split
      · next hc =>
          split
          · exact agrees_readAfterOverflow _ _ _ hd _
          · rw [skipNumberTail_point_digit hd hc]
            exact ih _ _
      · next hc =>
          rw [if_neg (Nat.add_one_ne_zero count), skipNumberTail.eq_1, if_pos hd,
            List.dropWhile_cons_of_neg hc]
          dsimp only
          by_cases he : c = 'e' ∨ c = 'E'
          · rw [if_pos he, if_pos he]
            exact agrees_readExponent _ _ _ _
          · rw [if_neg he, if_neg he]
            exact .of_readsTo (readsTo_fromParts _ _ _ _)

/-- A fraction from its point: at least one digit, then the rest. -/
theorem agrees_readFraction_zero (positive : Bool) (significand : Nat) (exponent : Int)
    (cs : List Char) :
    Agrees (readFraction positive significand exponent 0 cs) (skipNumberTail ('.' :: cs)) := by
  rcases cs with _ | ⟨c, rest⟩
  · exact .of_error
  · simp only [readFraction]
    split
    · next hc =>
        split
        · rw [← skipNumberTail_point_digit hc hc]
          exact agrees_readAfterOverflow _ _ _ hc _
        · exact agrees_readFraction_succ _ _ hc _ _ 0
    · next hc =>
        rw [if_pos trivial, skipNumberTail.eq_1, if_neg (by simpa using hc)]
        exact .of_error

theorem agrees_readNumberTail (positive : Bool) (significand : Nat) (cs : List Char) :
    Agrees (readNumberTail positive significand cs) (skipNumberTail cs) := by
  rcases cs with _ | ⟨c, rest⟩
  · exact .of_readsTo (.inl ⟨_, rfl⟩)
  by_cases hpoint : c = '.'
  · subst hpoint
    rw [readNumberTail.eq_1]
    exact agrees_readFraction_zero _ _ _ _
  · rw [readNumberTail.eq_2 _ _ _ _ hpoint,
      skipNumberTail.eq_3 _ _ (fun _ _ h _ => hpoint h) (fun h _ => hpoint h)]
    by_cases he : c = 'e' ∨ c = 'E'
    · rw [if_pos he, if_pos he]
      exact agrees_readExponent _ _ _ _
    · rw [if_neg he, if_neg he]
      exact .of_readsTo (.inl ⟨_, rfl⟩)

theorem agrees_readLongInteger (positive : Bool) (significand : Nat) (cs : List Char) :
    Agrees (readLongInteger positive significand cs)
      (skipNumberTail (cs.dropWhile Char.isDigit)) := by
  unfold readLongInteger
  generalize ((cs.takeWhile Char.isDigit).length : Int) = exponent
  generalize cs.dropWhile Char.isDigit = ds
  rcases ds with _ | ⟨c, after⟩
  · exact .of_readsTo (readsTo_fromParts _ _ _ [])
  by_cases hpoint : c = '.'
  · subst hpoint
    exact agrees_readFraction_zero _ _ _ _
  · rw [skipNumberTail.eq_3 _ _ (fun _ _ h _ => hpoint h) (fun h _ => hpoint h)]
    split
    · next heq => exact absurd (List.cons.inj heq).1 hpoint
    · next heq =>
        obtain ⟨rfl, rfl⟩ := List.cons.inj heq
        by_cases he : c = 'e' ∨ c = 'E'
        · rw [if_pos he, if_pos he]
          exact agrees_readExponent _ _ _ _
        · rw [if_neg he, if_neg he]
          exact .of_readsTo (readsTo_fromParts _ _ _ _)
    · next heq => cases heq

/-- Integer digits, gathered while the significand fits and counted after that. -/
theorem agrees_readSignificand (positive : Bool) (significand : Nat) (cs : List Char) :
    Agrees (readSignificand positive significand cs)
      (skipNumberTail (cs.dropWhile Char.isDigit)) := by
  induction cs generalizing significand with
  | nil => exact agrees_readNumberTail _ _ []
  | cons c rest ih =>
      simp only [readSignificand]
      split
      · next hc =>
          split
          · exact agrees_readLongInteger _ _ _
          · rw [List.dropWhile_cons_of_pos hc]
            exact ih _
      · next hc =>
          rw [List.dropWhile_cons_of_neg hc]
          exact agrees_readNumberTail _ _ _

theorem agrees_readNumber (positive : Bool) (cs : List Char) :
    Agrees (readNumber positive cs) (skipNumber cs) := by
  rcases cs with _ | ⟨c, rest⟩
  · exact .of_error
  by_cases hzero : c = '0'
  · subst hzero
    rcases rest with _ | ⟨d, rest⟩
    · exact agrees_readNumberTail _ _ []
    · rw [readNumber.eq_2, skipNumber.eq_1]
      split
      · exact .of_error
      · exact agrees_readNumberTail _ _ _
  · rw [readNumber.eq_4 _ _ _ hzero, skipNumber.eq_3 _ _ hzero]
    split
    · exact agrees_readSignificand _ _ _
    · exact .of_error

/-- The reader takes a number exactly where the grammar has one: where what follows cannot
extend a number, a number is read only from the text of one, and the text of one is read, or
refused as out of range and for no other reason. -/
theorem readNumber_takes_unsigned (positive : Bool) {cs r : List Char} (hr : Delimited r) :
    ((∃ n, readNumber positive cs = .ok (n, r)) → Unsigned cs r) ∧
      (Unsigned cs r → ReadsTo (readNumber positive cs) r) := by
  have h := agrees_readNumber positive cs
  constructor
  · rintro ⟨n, hn⟩
    exact (skipNumber_eq_ok_iff hr).1 (h.skip_of_read hn)
  · intro hu
    exact h.read_of_skip ((skipNumber_eq_ok_iff hr).2 hu)

/-- Integers from `-2 ^ 63` to `2 ^ 64 - 1`, written in decimal, are read as those integers. -/
theorem readNumber_integer_in_range {m : Nat} {r : List Char} (hr : Delimited r) :
    (m ≤ maxU64 → readNumber true (Nat.toDigits 10 m ++ r) = .ok (.nat (UInt64.ofNat m), r)) ∧
      (0 < m → m ≤ Nat.pow 2 63 →
        readNumber false (Nat.toDigits 10 m ++ r) = .ok (.neg (Int64.ofInt (-(m : Int))), r)) := by
  constructor
  · intro hm
    rw [readNumber_toDigits hm hr]
    rfl
  · intro hpos hm
    have hfit : m ≤ maxU64 := by
      unfold maxU64
      have : Nat.pow 2 63 < Nat.pow 2 64 := by decide
      omega
    rw [readNumber_toDigits hfit hr, readNumberTail.wholeNumber, if_neg Bool.false_ne_true,
      if_pos ⟨hpos, hm⟩]

end AccessRequest.Json
