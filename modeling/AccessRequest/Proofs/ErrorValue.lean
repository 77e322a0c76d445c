import AccessRequest.Api.Decode

/-!
An error's JSON form reads back as the error: the kind's tag is the one key, a message stands as
a string, and a server error's `message` and `status` stand in key order, the status as an
unsigned integer that never leaves the 16-bit range the reader asks for. So reading a value as an
error and writing that error again is a normal form: a value that reads as an error is written
as a value that reads as the same error.
-/

namespace AccessRequest.ApiError

open Json

/-- A value read as an error and written back in the error's JSON form. -/
def normalize (v : Value) : Except Mismatch Value := (ofValue v).map toValue

/-- A 16-bit status, written as an unsigned integer, reads back as itself. -/
theorem statusOf_status (s : UInt16) : statusOf (.number (.nat s.toUInt64)) = .ok s := by
  have hs : s.toNat ≤ 65535 := by
    have := s.toNat_lt
    omega
  simp [statusOf, hs]

/-- A server error's fields, in key order, read back as the error. -/
theorem serverFields_toValue (s : UInt16) (m : String) :
    serverFields none none [("message", .string m), ("status", .number (.nat s.toUInt64))] =
      .ok (.server s m) := by
  simp [serverFields, messageOf, statusOf_status, bind, Except.bind]

/-- Every error, of each kind, status and message, reads back from its JSON form. -/
theorem ofValue_toValue (e : ApiError) : ofValue e.toValue = .ok e := by
  cases e with
  | network m => rfl
  | server s m => simp [toValue, ofValue, ofKind, serverFields_toValue]
  | parse m => rfl
  | auth m => rfl

/-- Writing an error in its JSON form and reading it back is the identity on errors; hence a
value that reads as an error `e` is normalised to the JSON form of `e`, which reads as `e` again,
and normalising twice is normalising once. -/
theorem ofValue_toValue_normalize_idempotent :
    (∀ e : ApiError, ofValue e.toValue = .ok e) ∧
      (∀ (v : Value) (e : ApiError), ofValue v = .ok e → ofValue e.toValue = .ok e) ∧
      ∀ v : Value, normalize v >>= normalize = normalize v := by
  refine ⟨ofValue_toValue, fun _ e _ => ofValue_toValue e, fun v => ?_⟩
  cases h : ofValue v with
  | error f => simp [normalize, h, bind, Except.bind, Except.map]
  | ok e => simp [normalize, h, ofValue_toValue, bind, Except.bind, Except.map]

end AccessRequest.ApiError
