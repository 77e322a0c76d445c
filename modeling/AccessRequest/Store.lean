import AccessRequest.Snapshot.Read
import AccessRequest.Log

/-!
The page tree's store of the permission snapshot. It is read from the text the host page embeds;
text that does not read as a snapshot leaves the store empty, the same as no text, and logs a
warning with the reason.
-/

namespace AccessRequest

/-- The snapshot the pages see, if the host provided one. -/
structure Store where
  snapshot : Option Snapshot := none
  deriving Repr

namespace Store

/-- The store read from snapshot text, and what reading it logged. -/
def ofJsonLogged (text : String) : Store × List LogRecord :=
  match Snapshot.read text with
  | .ok s => ({ snapshot := some s }, [])
  | .error e => ({}, [⟨.warn, "Ignoring malformed permission snapshot: " ++ e.message⟩])

/-- The store read from snapshot text. -/
def ofJson (text : String) : Store := (ofJsonLogged text).1

/-- The store read from snapshot text when there is some, else empty. -/
def ofText? (text : Option String) : Store :=
  match text with
  | some t => ofJson t
  | none => {}

end Store

end AccessRequest
