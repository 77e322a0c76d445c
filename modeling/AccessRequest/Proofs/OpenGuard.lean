import AccessRequest.Proofs.Teardown
import AccessRequest.PageFlow
import AccessRequest.Page

/-!
The access-denied page's flow never fails and offers the request-access action only for a URL
its resolution produced. Snapshot text that does not read leaves the store empty, as no text
does, so the flow then ends with a missing snapshot, nothing published and nothing called. Every
state the page's hook holds, the default one first and then each one delivered, whenever the
view is torn down, enables the button and lets the open action reach a window only when it holds
the non-empty URL of the run's resolved outcome, in a new browsing context.
-/

namespace AccessRequest

namespace Store

theorem ofJson_snapshot (text : String) :
    (ofJson text).snapshot = match Snapshot.read text with
      | .ok s => some s
      | .error _ => none := by
  unfold ofJson ofJsonLogged
  split <;> simp [*]

theorem ofJson_snapshot_eq_some_iff {text : String} {s : Snapshot} :
    (ofJson text).snapshot = some s ↔ Snapshot.read text = .ok s := by
  rw [ofJson_snapshot]
  split <;> simp [*]

theorem ofJson_snapshot_of_read_error {text : String} {e : Json.Error}
    (h : Snapshot.read text = .error e) : (ofJson text).snapshot = none := by
  simp [ofJson_snapshot, h]

end Store

/-- A state can open only the URL its resolution resolved to, and that URL is not empty. -/
def OpensResolvedOnly (resolution : Resolution) (s : AccessUrlState) : Prop :=
  s.canOpen = true → ∃ u, resolution = .resolved u ∧ u ≠ "" ∧ s.url = u

theorem opensResolvedOnly_of_canOpen_false {resolution : Resolution} {s : AccessUrlState}
    (h : s.canOpen = false) : OpensResolvedOnly resolution s := by
  intro hopen
  rw [h] at hopen
  cases hopen

theorem opensResolvedOnly_initial (resolution : Resolution) :
    OpensResolvedOnly resolution initialAccessState :=
  opensResolvedOnly_of_canOpen_false rfl

variable (service : Json.Value → Except ApiError String) (key : Option String)
  (snapshot : Option Snapshot)

/-- Every state a resolution publishes keeps the guard: the loading state and a failure's state
hold no URL to open, and a success's state holds the non-empty URL it resolved to. -/
theorem opensResolvedOnly_published :
    ∀ s ∈ Event.published (resolve service key snapshot).2,
      OpensResolvedOnly (resolve service key snapshot).1 s := by
  intro s hs
  rcases resolve_cases service key snapshot with ⟨reason, h⟩ | ⟨p, url, hne, h⟩ | ⟨p, e, h⟩
  · rw [h] at hs
    cases hs
  · rw [h] at hs ⊢
    simp only [Event.published_publish, Event.published_call, Event.published_nil,
      List.mem_cons, List.not_mem_nil, or_false] at hs
    rcases hs with rfl | rfl
    · exact opensResolvedOnly_of_canOpen_false rfl
    · intro _
      exact ⟨url, rfl, hne, rfl⟩
  · rw [h] at hs ⊢
    simp only [Event.published_publish, Event.published_call, Event.published_nil,
      List.mem_cons, List.not_mem_nil, or_false] at hs
    rcases hs with rfl | rfl <;> exact opensResolvedOnly_of_canOpen_false rfl

/-- A view receives only states the resolution published, however it is torn down. -/
theorem delivered_subset_published (teardownOnCall : Bool) :
    (resolveDelivered service key snapshot teardownOnCall).delivered ⊆
      Event.published (resolve service key snapshot).2 := by
  cases teardownOnCall with
  | false =>
      rw [resolveDelivered_false_delivered]
      exact List.Subset.refl _
  | true =>
      rw [(resolveDelivered_true service key snapshot).2.2, resolveDelivered_false_delivered]
      exact (List.take_prefix _ _).subset

theorem live_subset_published {moments : List Moment}
    (hsteps : Moment.steps moments = (resolve service key snapshot).2) :
    (Delivery.live {} moments).delivered ⊆ Event.published (resolve service key snapshot).2 := by
  rw [Delivery.live_delivered, ← hsteps]
  exact (published_before_teardown_isPrefix moments).subset

/-- What the page shows for a state: the button is enabled and the open action opens a window,
in a new browsing context, only on the non-empty URL the resolution resolved to. -/
def OpenGuarded (resolution : Resolution) (s : AccessUrlState) : Prop :=
  (∀ attributes children, Page.requestButton s = .element "button" attributes children →
      ("disabled", "disabled") ∉ attributes → ∃ u, resolution = .resolved u ∧ u ≠ "" ∧ s.url = u) ∧
  (∀ url target, (pressOpen s).1 = .opened url target →
      resolution = .resolved url ∧ url ≠ "" ∧ s.url = url ∧ target = "_blank")

/-- The button is enabled only in a state that can open. -/
theorem canOpen_of_requestButton {s : AccessUrlState} {attributes : List (String × String)}
    {children : List Html} (h : Page.requestButton s = .element "button" attributes children)
    (henabled : ("disabled", "disabled") ∉ attributes) : s.canOpen = true := by
  cases hopen : s.canOpen with
  | true => rfl
  | false =>
      simp only [Page.requestButton, hopen, Bool.false_eq_true, if_false, Html.element.injEq] at h
      exact absurd (h.2.1 ▸ List.mem_cons_self) henabled

/-- Pressing the open action opens a window only from a state that can open, on its URL, in a new
browsing context. -/
theorem pressOpen_opened {s : AccessUrlState} {url target : String}
    (h : (pressOpen s).1 = .opened url target) :
    s.canOpen = true ∧ url = s.url ∧ target = accessUrlTarget := by
  unfold pressOpen at h
  split at h
  · rename_i hopen
    simp only [OpenOutcome.opened.injEq] at h
    exact ⟨hopen, h.1.symm, h.2.symm⟩
  · cases h

theorem openGuarded_of_opensResolvedOnly {resolution : Resolution} {s : AccessUrlState}
    (h : OpensResolvedOnly resolution s) : OpenGuarded resolution s := by
  refine ⟨fun attributes children hb henabled => h (canOpen_of_requestButton hb henabled), ?_⟩
  intro url target hpress
  obtain ⟨hopen, rfl, rfl⟩ := pressOpen_opened hpress
  obtain ⟨u, hres, hne, hu⟩ := h hopen
  rw [hu]
  exact ⟨hres, hne, rfl, rfl⟩

/-- Every state the hook holds keeps the guard: the default one, then states the resolution
published. -/
theorem openGuarded_of_held {delivered : List AccessUrlState}
    (hdelivered : delivered ⊆ Event.published (resolve service key snapshot).2) :
    ∀ s ∈ initialAccessState :: delivered, OpenGuarded (resolve service key snapshot).1 s := by
  intro s hs
  apply openGuarded_of_opensResolvedOnly
  rcases List.mem_cons.mp hs with rfl | hmem
  · exact opensResolvedOnly_initial _
  · exact opensResolvedOnly_published service key snapshot s (hdelivered hmem)

/-- Malformed snapshot text leaves the flow without a snapshot: it ends there, with nothing
published and nothing called. -/
theorem accessDeniedFlow_of_read_error (id : Option String) {text : String} {e : Json.Error}
    (h : Snapshot.read text = .error e) (teardownOnCall : Bool) :
    (accessDeniedFlow service id (some text) teardownOnCall).run.resolution =
        .noAction .missingSnapshot ∧
      (accessDeniedFlow service id (some text) teardownOnCall).run.delivered = [] ∧
      (accessDeniedFlow service id (some text) teardownOnCall).run.calls = [] := by
  have hnone : (Store.ofText? (some text)).snapshot = none :=
    Store.ofJson_snapshot_of_read_error h
  have hres := resolve_of_lookup_error service (id.map normalizeRouteKey) none
    (Snapshot.lookup_none (id.map normalizeRouteKey))
  simp only [accessDeniedFlow, hnone, resolveDelivered, hres]
  cases teardownOnCall <;> simp [Delivery.run]

/-- The access-denied page's flow. Its store is read from the snapshot text, holding a snapshot
exactly when the text reads as one and empty, as with no text, when it does not; its key is the
normalized route identifier; and its outcome, delivered states and calls are those of resolving
that key in that store through the view's publisher. Malformed text ends the flow with a missing
snapshot, nothing delivered and nothing called. Every state the hook holds, the default first and
then each delivered, with the view torn down during the call or not, or at any moments at all,
enables the button and opens a window only on the non-empty URL the run resolved to. -/
theorem accessDeniedFlow_guarded (id text : Option String) (teardownOnCall : Bool) :
    (accessDeniedFlow service id text teardownOnCall).key = id.map normalizeRouteKey ∧
    (accessDeniedFlow service id text teardownOnCall).run =
      resolveDelivered service (id.map normalizeRouteKey) (Store.ofText? text).snapshot
        teardownOnCall ∧
    (∀ t, text = some t →
      (∀ s, (Store.ofText? text).snapshot = some s ↔ Snapshot.read t = .ok s) ∧
      ∀ e, Snapshot.read t = .error e →
        (Store.ofText? text).snapshot = (Store.ofText? none).snapshot ∧
        (accessDeniedFlow service id text teardownOnCall).run.resolution =
          .noAction .missingSnapshot ∧
        (accessDeniedFlow service id text teardownOnCall).run.delivered = [] ∧
        (accessDeniedFlow service id text teardownOnCall).run.calls = []) ∧
    (accessDeniedFlow service id text teardownOnCall).heldStates.head? = some initialAccessState ∧
    (∀ s ∈ (accessDeniedFlow service id text teardownOnCall).heldStates,
      OpenGuarded (accessDeniedFlow service id text teardownOnCall).run.resolution s) ∧
    ∀ moments, Moment.steps moments =
        (resolve service (id.map normalizeRouteKey) (Store.ofText? text).snapshot).2 →
      ∀ s ∈ initialAccessState :: (Delivery.live {} moments).delivered,
        OpenGuarded (accessDeniedFlow service id text teardownOnCall).run.resolution s := by
  refine ⟨rfl, rfl, ?_, rfl, ?_, ?_⟩
  · rintro t rfl
    refine ⟨fun s => Store.ofJson_snapshot_eq_some_iff, fun e he => ?_⟩
    exact ⟨Store.ofJson_snapshot_of_read_error he,
      accessDeniedFlow_of_read_error service id he teardownOnCall⟩
  · exact openGuarded_of_held service _ _ (delivered_subset_published service _ _ teardownOnCall)
  · intro moments hsteps
    exact openGuarded_of_held service _ _ (live_subset_published service _ _ hsteps)

end AccessRequest
