import AccessRequest.Snapshot
import AccessRequest.Json.Read

/-!
Reading a snapshot from its text. The text holds an object whose member `urlParams` (exactly
so spelt, after unescaping) is an object of payloads; other members are skipped, a second
`urlParams` is refused and a missing one is empty. An array of at most one such object is read
the same way. Payloads nest at most 125 levels below the text's own two objects.
-/

namespace AccessRequest.Snapshot

open Json

/-- The nesting room inside the snapshot's own object or array. -/
def innerRoom : Nat := nestingRoom - 1

/-- The members of the snapshot object after `first` or not, with `urlParams` if read already;
the payloads and the text after the closing brace. -/
def readFields (cs : List Char) (found : Option Members) (first : Bool) :
    Except Fault (Members × List Char) :=
  match hk : readKey cs first with
  | .error f => .error f
  | .ok none => .ok (found.getD [], afterObject cs)
  | .ok (some (key, afterKey)) =>
    have := readKey_length_lt hk
    if key = "urlParams" then
      match found with
      | some _ => .error ((Fault.loose (.duplicateField "urlParams")).placeAt (afterObject afterKey))
      | none =>
        match hc : readColon afterKey with
        | .error f => .error f
        | .ok valueText =>
          have := readColon_length_lt hc
          match readStringMap innerRoom valueText with
          | .error f => .error f
          | .ok (params, ⟨rest, _⟩) => readFields rest (some params) false
    else
      match hc : readColon afterKey with
      | .error f => .error f
      | .ok valueText =>
        have := readColon_length_lt hc
        match skipValue valueText with
        | .error f => .error f
        | .ok ⟨rest, _⟩ => readFields rest found false
termination_by cs.length

/-- The snapshot array after its opening bracket: empty, or one object of payloads. -/
def readElements (cs : List Char) : Except Fault (Members × List Char) :=
  match skipBlank cs with
  | [] => .error (Fault.ahead .eofWhileParsingList [])
  | ']' :: _ => (closeArray cs).map ([], ·)
  | c :: rest => do
    let (params, after) ← readStringMap innerRoom (c :: rest)
    let after ← closeArray after.val
    pure (params, after)

/-- A snapshot at the front of `cs`, and the text after it. -/
def readFront (cs : List Char) : Except Fault (Snapshot × List Char) :=
  match skipBlank cs with
  | [] => .error (Fault.ahead .eofWhileParsingValue [])
  | '{' :: rest => (readFields rest none true).map fun (params, r) => (⟨params⟩, r)
  | '[' :: rest => (readElements rest).map fun (params, r) => (⟨params⟩, r)
  | c :: rest => .error (mismatchAt "struct PermissionSnapshot" (c :: rest))

/-- The snapshot a whole text holds. -/
def read (text : String) : Except Error Snapshot :=
  let cs := text.toList
  let result := do
    let (s, rest) ← readFront cs
    expectEnd rest
    pure s
  result.mapError (·.locate cs)

end AccessRequest.Snapshot
