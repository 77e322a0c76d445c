import AccessRequest.Api.Error
import AccessRequest.Json.Read

/-!
The access-URL endpoint's answer: an object whose member `url` is a string, or an array of that
one string. Other members are skipped; `url` twice, or not at all, is refused. Any fault of the
text becomes a parse error whose message is the read's own.
-/

namespace AccessRequest.AccessUrl

open Json

/-- The members of the answer object after `first` or not, with `url` if read already; the URL
and the text after the closing brace. -/
def readFields (cs : List Char) (found : Option String) (first : Bool) :
    Except Fault (String × List Char) :=
  match hk : readKey cs first with
  | .error f => .error f
  | .ok none =>
    match found with
    | some url => .ok (url, afterObject cs)
    | none => .error ((Fault.loose (.missingField "url")).placeAt (afterObject cs))
  | .ok (some (key, afterKey)) =>
    have := readKey_length_lt hk
    if key = "url" then
      match found with
      | some _ => .error ((Fault.loose (.duplicateField "url")).placeAt (afterObject afterKey))
      | none =>
        match hc : readColon afterKey with
        | .error f => .error f
        | .ok valueText =>
          have := readColon_length_lt hc
          match hs : readStringValue valueText with
          | .error f => .error f
          | .ok (url, rest) =>
            have := readStringValue_length_lt hs
            readFields rest (some url) false
    else
      match hc : readColon afterKey with
      | .error f => .error f
      | .ok valueText =>
        have := readColon_length_lt hc
        match skipValue valueText with
        | .error f => .error f
        | .ok ⟨rest, _⟩ => readFields rest found false
termination_by cs.length

/-- The answer array after its opening bracket: exactly one string. -/
def readElements (cs : List Char) : Except Fault (String × List Char) :=
  match skipBlank cs with
  | [] => .error (Fault.ahead .eofWhileParsingList [])
  | ']' :: _ =>
    .error ((Fault.loose (.invalidLength 0 "struct AccessUrlResponse with 1 element")).placeAt
      (afterArray cs))
  | c :: rest => do
    let (url, after) ← readStringValue (c :: rest)
    let after ← closeArray after
    pure (url, after)

/-- The URL at the front of `cs`, and the text after the answer. -/
def readFront (cs : List Char) : Except Fault (String × List Char) :=
  match skipBlank cs with
  | [] => .error (Fault.ahead .eofWhileParsingValue [])
  | '{' :: rest => readFields rest none true
  | '[' :: rest => readElements rest
  | c :: rest => .error (mismatchAt "struct AccessUrlResponse" (c :: rest))

/-- The URL a whole answer text holds. -/
def read (text : String) : Except Error String :=
  let cs := text.toList
  let result := do
    let (url, rest) ← readFront cs
    expectEnd rest
    pure url
  result.mapError (·.locate cs)

/-- The URL of an answer body, or a parse error with the read's message. -/
def parseResponse (body : String) : Except ApiError String :=
  (read body).mapError fun e => .parse e.message

end AccessRequest.AccessUrl

namespace AccessRequest.AccessUrl

/-- The answer of the access-URL call once its response has arrived: the status's error, if
any, else the URL of the body. -/
def answerOfResponse (status : UInt16) (body : String) : Except ApiError String :=
  match statusError status body with
  | some e => .error e
  | none => parseResponse body

end AccessRequest.AccessUrl
