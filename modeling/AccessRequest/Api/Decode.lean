import AccessRequest.Api.Error
import AccessRequest.Json.Error

/-!
An error read back from its JSON form. The form is a string naming a kind, or an object with
exactly one key naming it; the kind is checked first. Network, parse and authentication errors
then need a string, a server error an object whose `status` is an integer from 0 to 65535 and
whose `message` is a string, checked in key order, `status` missing before `message`; other
keys of it are ignored. A bare kind name has no content, which no kind accepts.
-/

namespace AccessRequest.ApiError

open Json

/-- A string where a message belongs. -/
def messageOf (v : Value) : Except Mismatch String :=
  match v with
  | .string s => .ok s
  | other => .error (.invalidType other.unexpected "a string")

/-- An integer from 0 to 65535 where a status belongs. -/
def statusOf (v : Value) : Except Mismatch UInt16 :=
  match v with
  | .number (.nat n) =>
    if n.toNat ≤ 65535 then .ok n.toNat.toUInt16 else .error (.invalidValue (.unsigned n.toNat) "u16")
  | .number (.neg n) => .error (.invalidValue (.signed n.toInt) "u16")
  | other => .error (.invalidType other.unexpected "u16")

/-- The fields of a server error, read in key order. -/
def serverFields (status : Option UInt16) (message : Option String) :
    Members → Except Mismatch ApiError
  | [] =>
    match status, message with
    | none, _ => .error (.missingField "status")
    | _, none => .error (.missingField "message")
    | some s, some m => .ok (.server s m)
  | (k, v) :: rest =>
    if k = "status" then do
      let s ← statusOf v
      serverFields (some s) message rest
    else if k = "message" then do
      let m ← messageOf v
      serverFields status (some m) rest
    else serverFields status message rest

/-- The error of kind `name` with content `content` (none for a bare name). -/
def ofKind (name : String) (content : Option Value) : Except Mismatch ApiError :=
  let message := fun (make : String → ApiError) =>
    match content with
    | none => .error (.invalidType .unitVariant "newtype variant")
    | some v => (messageOf v).map make
  if name = "Network" then message .network
  else if name = "Parse" then message .parse
  else if name = "Auth" then message .auth
  else if name = "Server" then
    match content with
    | none => .error (.invalidType .unitVariant "struct variant")
    | some (.object ms) => serverFields none none ms
    | some other => .error (.invalidType other.unexpected "struct variant")
  else .error (.unknownVariant name kinds)

/-- The error a JSON value stands for. -/
def ofValue (v : Value) : Except Mismatch ApiError :=
  match v with
  | .string name => ofKind name none
  | .object [(name, content)] => ofKind name (some content)
  | .object _ => .error (.invalidValue .map "map with a single key")
  | other => .error (.invalidType other.unexpected "string or map")

end AccessRequest.ApiError
