import AccessRequest.Json.Value

/-!
The permission snapshot: which actions need which request-access parameters. It maps action
keys to parameter payloads, JSON values that are only handed on to the access service. Looking
a key up fails for a missing snapshot before anything else, and a key with no payload, or with
a `null` payload, has none.
-/

namespace AccessRequest

/-- The client's copy of the permission matrix: a payload per action key. -/
structure Snapshot where
  urlParams : Json.Members := []
  deriving Repr

/-- Why no request-access action is offered. Neither is an error: the page leaves the action
out. -/
inductive NoAction where
  | missingSnapshot
  | unknownKey
  deriving DecidableEq, Repr

namespace NoAction

/-- The name of the reason. -/
def name : NoAction → String
  | .missingSnapshot => "MissingSnapshot"
  | .unknownKey => "UnknownKey"

end NoAction

namespace Snapshot

/-- The payload stored for `key`. -/
def paramsFor (s : Snapshot) (key : String) : Option Json.Value := s.urlParams.get? key

/-- The payload for `key`: a missing snapshot comes first, then a missing key or payload, and a
`null` payload counts as none. -/
def lookup (snapshot : Option Snapshot) (key : Option String) : Except NoAction Json.Value :=
  match snapshot with
  | none => .error .missingSnapshot
  | some s =>
    match key.bind s.paramsFor with
    | some p => if p.isNull then .error .unknownKey else .ok p
    | none => .error .unknownKey

/-- The snapshot as a JSON object with its one field. -/
def toValue (s : Snapshot) : Json.Value := .object [("urlParams", .object s.urlParams)]

end Snapshot

end AccessRequest
