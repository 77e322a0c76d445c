import AccessRequest.Resolution
import AccessRequest.Log
import AccessRequest.Api.Endpoint

/-!
The page's hold on a resolution while it renders. Before the resolution has published anything
the state is the default: no URL, not loading, no failure. Opening the URL from a state that
cannot open it logs that the URL is not available yet and does nothing else; from one that can,
it opens the URL in a new browsing context.
-/

namespace AccessRequest

/-- What pressing the open action does from a state: opening `url` in `target`, or nothing. -/
inductive OpenOutcome where
  | opened (url : String) (target : String)
  | ignored
  deriving DecidableEq, Repr

/-- The state before the resolution publishes. -/
def initialAccessState : AccessUrlState := {}

/-- Pressing the open action from `s`, and what it logs. -/
def pressOpen (s : AccessUrlState) : OpenOutcome × List LogRecord :=
  if s.canOpen then (.opened s.url accessUrlTarget, [])
  else (.ignored, [⟨.debug, "Access URL not available yet, ignoring open"⟩])

/-- The log of pressing the open action `n` times from `s`. -/
def pressOpenTimes (s : AccessUrlState) (n : Nat) : List LogRecord :=
  (List.replicate n s).flatMap fun s => (pressOpen s).2

end AccessRequest
