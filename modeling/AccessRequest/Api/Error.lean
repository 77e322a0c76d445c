import AccessRequest.Json.Value

/-!
Errors of the access-URL call. A response status outside 200–299 is an error: 401 and 403 are an
authentication error that names the status and drops the body, every other one a server error
that keeps the body as its message. Each error has a one-line text, and a JSON form tagged by
its kind.
-/

namespace AccessRequest

/-- An error of the access-URL call. -/
inductive ApiError where
  /-- The connection failed. -/
  | network (message : String)
  /-- The server answered with an error status. -/
  | server (status : UInt16) (message : String)
  /-- The answer could not be read. -/
  | parse (message : String)
  /-- Authentication was refused or is missing. -/
  | auth (message : String)
  deriving DecidableEq, Repr

namespace ApiError

/-- The kind's name, as the tag of the JSON form. -/
def kind : ApiError → String
  | .network _ => "Network"
  | .server _ _ => "Server"
  | .parse _ => "Parse"
  | .auth _ => "Auth"

/-- The kinds' names, in order. -/
def kinds : List String := ["Network", "Server", "Parse", "Auth"]

/-- The one-line text of an error. -/
def display : ApiError → String
  | .network m => "Network error: " ++ m
  | .server status m => "Server error (" ++ Nat.repr status.toNat ++ "): " ++ m
  | .parse m => "Parse error: " ++ m
  | .auth m => "Auth error: " ++ m

/-- The JSON form: an object with the kind as its one key, holding the message, or for a server
error an object of `message` and `status`. -/
def toValue : ApiError → Json.Value
  | .network m => .object [("Network", .string m)]
  | .server status m =>
    .object [("Server", .object [("message", .string m), ("status", .number (.nat status.toUInt64))])]
  | .parse m => .object [("Parse", .string m)]
  | .auth m => .object [("Auth", .string m)]

end ApiError

/-- The error a response status stands for: none for 200–299. -/
def statusError (status : UInt16) (body : String) : Option ApiError :=
  if 200 ≤ status.toNat ∧ status.toNat ≤ 299 then none
  else if status = 401 ∨ status = 403 then
    some (.auth ("access URL request rejected with " ++ Nat.repr status.toNat))
  else some (.server status body)

end AccessRequest
