import AccessRequest.Store
import AccessRequest.RouteKey
import AccessRequest.Resolution
import AccessRequest.Hook

/-!
The access-denied page's flow: the store is read from the snapshot text, the route identifier
becomes a permission key, and the key is resolved through a publisher that stops delivering
once the page is torn down. Malformed snapshot text is no snapshot, so the flow never fails.
-/

namespace AccessRequest

/-- What the access-denied page's flow did. -/
structure PageRun where
  key : Option String
  snapshotLoaded : Bool
  run : ResolutionRun

/-- The flow for route identifier `id` and snapshot text `text`. -/
def accessDeniedFlow (service : Json.Value → Except ApiError String) (id : Option String)
    (text : Option String) (teardownOnCall : Bool) : PageRun :=
  let store := Store.ofText? text
  let key := id.map normalizeRouteKey
  ⟨key, store.snapshot.isSome, resolveDelivered service key store.snapshot teardownOnCall⟩

/-- The states the page's hook holds in turn: the default state it first renders with, the same
for every identifier and store, then each state delivered to it. -/
def PageRun.heldStates (r : PageRun) : List AccessUrlState := initialAccessState :: r.run.delivered

end AccessRequest
