import AccessRequest.Snapshot
import AccessRequest.Api.Error

/-!
Resolving the request-access URL of a key. A lookup miss ends the resolution with no event;
a hit publishes the loading state, calls the access service once with the payload, and
publishes one final state whatever the answer: the URL, or the error's text. An empty URL is a
parse error.

A publisher delivers states only while its view is alive; the view clears the flag when it is
torn down, which may happen before the resolution starts, while the call is in flight, or between
any two of its steps: the view lives through the resolution's steps interleaved with teardowns.
-/

namespace AccessRequest

/-- What the page shows of a resolution. -/
structure AccessUrlState where
  /-- The request-access URL, empty until the call succeeds. -/
  url : String := ""
  /-- The call is in flight. -/
  loading : Bool := false
  /-- The failed call's text. -/
  failure : Option String := none
  deriving DecidableEq, Repr

namespace AccessUrlState

/-- The action has somewhere to go: not loading, and a URL. -/
def canOpen (s : AccessUrlState) : Bool := !s.loading && !s.url.isEmpty

end AccessUrlState

/-- The label of the request-access button. -/
def requestButtonLabel (loading : Bool) : String :=
  if loading then "Loading..." else "Request access"

/-- How a resolution ends. -/
inductive Resolution where
  | noAction (reason : NoAction)
  | resolved (url : String)
  | failed (error : ApiError)
  deriving DecidableEq, Repr

/-- A step of a resolution: a state published, or the service called with a payload. -/
inductive Event where
  | publish (state : AccessUrlState)
  | call (payload : Json.Value)
  deriving Repr

/-- The service's answer with an empty URL refused. -/
def acceptUrl (answer : Except ApiError String) : Except ApiError String :=
  match answer with
  | .ok "" => .error (.parse "empty access URL")
  | other => other

/-- The outcome of resolving `key` in `snapshot` with the service `service`, and its events in
order. -/
def resolve (service : Json.Value → Except ApiError String) (key : Option String)
    (snapshot : Option Snapshot) : Resolution × List Event :=
  match Snapshot.lookup snapshot key with
  | .error reason => (.noAction reason, [])
  | .ok params =>
    let loading : Event := .publish { loading := true }
    match acceptUrl (service params) with
    | .ok url => (.resolved url, [loading, .call params, .publish { url := url }])
    | .error e => (.failed e, [loading, .call params, .publish { failure := some e.display }])

/-- The payloads a resolution's events pass to the service. -/
def Event.calls (events : List Event) : List Json.Value :=
  events.filterMap fun
    | .call p => some p
    | .publish _ => none

/-- A publisher that delivers states while its view is alive. -/
structure Delivery where
  alive : Bool := true
  /-- Delivered states, in order. -/
  delivered : List AccessUrlState := []
  deriving Repr

namespace Delivery

/-- Publishing: delivered only while alive. -/
def publish (d : Delivery) (s : AccessUrlState) : Delivery :=
  if d.alive then { d with delivered := d.delivered ++ [s] } else d

/-- Setting the view's flag. -/
def setAlive (d : Delivery) (alive : Bool) : Delivery := { d with alive := alive }

/-- Running a resolution's events; with `teardownOnCall` the view is torn down when the service
is called. -/
def run (teardownOnCall : Bool) (d : Delivery) : List Event → Delivery
  | [] => d
  | .publish s :: rest => (d.publish s).run teardownOnCall rest
  | .call _ :: rest => (if teardownOnCall then d.setAlive false else d).run teardownOnCall rest

end Delivery

/-- A moment in the life of a resolution's view: a step of the resolution, or the view torn down.
A list of moments interleaves the resolution's steps with teardowns at any points; nothing sets a
torn-down view alive again. -/
inductive Moment where
  | step (e : Event)
  | teardown
  deriving Repr

namespace Moment

/-- The resolution's own steps among the moments, in order. -/
def steps (moments : List Moment) : List Event :=
  moments.filterMap fun
    | .step e => some e
    | .teardown => none

/-- The moment is a step of the resolution. -/
def isStep : Moment → Bool
  | .step _ => true
  | .teardown => false

end Moment

/-- The states a resolution's events publish, in order. -/
def Event.published (events : List Event) : List AccessUrlState :=
  events.filterMap fun
    | .publish s => some s
    | .call _ => none

/-- Living through `moments`: a published state goes through the publisher, and a teardown
clears the view's flag. -/
def Delivery.live (d : Delivery) : List Moment → Delivery
  | [] => d
  | .step (.publish s) :: rest => (d.publish s).live rest
  | .step (.call _) :: rest => d.live rest
  | .teardown :: rest => (d.setAlive false).live rest

/-- A resolution as its view sees it: the outcome, the states delivered to the view, and the
payloads passed to the service. -/
structure ResolutionRun where
  resolution : Resolution
  delivered : List AccessUrlState
  calls : List Json.Value

/-- Resolving through a publisher that starts alive; with `teardownOnCall` the view is torn down
while the call is in flight. -/
def resolveDelivered (service : Json.Value → Except ApiError String) (key : Option String)
    (snapshot : Option Snapshot) (teardownOnCall : Bool) : ResolutionRun :=
  let (resolution, events) := resolve service key snapshot
  ⟨resolution, (Delivery.run teardownOnCall {} events).delivered, Event.calls events⟩

end AccessRequest
