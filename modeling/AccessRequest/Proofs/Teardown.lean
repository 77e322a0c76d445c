import AccessRequest.Proofs.ResolveTrace

/-!
A view torn down while its resolution runs. The publisher reads the view's flag at each state it
is handed, and the flag, once cleared, stays so; a teardown may come before the resolution
starts, between any two of its steps, or after it. What reaches the view is then the run of
states the resolution publishes before the first teardown, a prefix of what an undisturbed view
receives; the resolution's own steps, its outcome and its calls, never read the flag.
-/

namespace AccessRequest

namespace Moment

@[simp] theorem steps_nil : steps [] = [] := rfl

@[simp] theorem steps_step (e : Event) (rest : List Moment) :
    steps (.step e :: rest) = e :: steps rest := rfl

@[simp] theorem steps_teardown (rest : List Moment) : steps (.teardown :: rest) = steps rest := rfl

@[simp] theorem takeWhile_isStep_step (e : Event) (rest : List Moment) :
    (Moment.step e :: rest).takeWhile isStep = .step e :: rest.takeWhile isStep := rfl

@[simp] theorem takeWhile_isStep_teardown (rest : List Moment) :
    (Moment.teardown :: rest).takeWhile isStep = [] := rfl

/-- A resolution's events lived through with no teardown. -/
@[simp] theorem steps_map_step (events : List Event) : steps (events.map .step) = events := by
  induction events with
  | nil => rfl
  | cons e rest ih => simp [ih]

@[simp] theorem takeWhile_isStep_map_step (events : List Event) :
    (events.map Moment.step).takeWhile isStep = events.map .step := by
  induction events with
  | nil => rfl
  | cons e rest ih => simp [ih]

end Moment

namespace Event

@[simp] theorem published_nil : published [] = [] := rfl

@[simp] theorem published_publish (s : AccessUrlState) (rest : List Event) :
    published (.publish s :: rest) = s :: published rest := rfl

@[simp] theorem published_call (p : Json.Value) (rest : List Event) :
    published (.call p :: rest) = published rest := rfl

@[simp] theorem calls_nil : calls [] = [] := rfl

@[simp] theorem calls_publish (s : AccessUrlState) (rest : List Event) :
    calls (.publish s :: rest) = calls rest := rfl

@[simp] theorem calls_call (p : Json.Value) (rest : List Event) :
    calls (.call p :: rest) = p :: calls rest := rfl

end Event

namespace Delivery

variable (d : Delivery)

@[simp] theorem publish_alive (s : AccessUrlState) : (d.publish s).alive = d.alive := by
  unfold publish
  split <;> rfl

@[simp] theorem publish_delivered (s : AccessUrlState) :
    (d.publish s).delivered = d.delivered ++ if d.alive then [s] else [] := by
  unfold publish
  split <;> simp [*]

@[simp] theorem setAlive_alive (alive : Bool) : (d.setAlive alive).alive = alive := rfl

@[simp] theorem setAlive_delivered (alive : Bool) : (d.setAlive alive).delivered = d.delivered :=
  rfl

/-- What a view receives while living through `moments`: while it is alive, the states published
before the first teardown, and nothing once its flag is cleared. The induction is on the moments:
a publish appends its state exactly when the flag is set, a call leaves the view as it is, and a
teardown clears the flag for good, so nothing after it arrives. -/
theorem live_delivered (moments : List Moment) :
    (d.live moments).delivered = d.delivered ++
      if d.alive then Event.published (Moment.steps (moments.takeWhile Moment.isStep)) else [] := by
  induction moments generalizing d with
  | nil => simp [live]
  | cons m rest ih =>
      cases m with
      | step e =>
          cases e with
          | publish s =>
              rw [live, ih]
              by_cases halive : d.alive <;> simp [halive]
          | call p =>
              rw [live, ih]
              simp
      | teardown =>
          rw [live, ih]
          simp

/-- A view that is never torn down receives every published state. -/
theorem run_false_eq_live (events : List Event) :
    d.run false events = d.live (events.map .step) := by
  induction events generalizing d with
  | nil => rfl
  | cons e rest ih =>
      cases e with
      | publish s => exact ih _
      | call p => exact ih _

theorem run_false_delivered (events : List Event) :
    (d.run false events).delivered = d.delivered ++ if d.alive then Event.published events else [] := by
  rw [run_false_eq_live, live_delivered]
  simp

end Delivery

/-- The states published before the first teardown are the first of all states published. -/
theorem published_before_teardown_isPrefix (moments : List Moment) :
    Event.published (Moment.steps (moments.takeWhile Moment.isStep)) <+:
      Event.published (Moment.steps moments) :=
  ((List.takeWhile_prefix _).filterMap _).filterMap _

variable (service : Json.Value → Except ApiError String) (key : Option String)
  (snapshot : Option Snapshot)

/-- An undisturbed view receives exactly the states the resolution publishes. -/
theorem resolveDelivered_false_delivered :
    (resolveDelivered service key snapshot false).delivered =
      Event.published (resolve service key snapshot).2 := by
  simp [resolveDelivered, Delivery.run_false_delivered]

/-- A view torn down as the service is called receives the loading state only, and the
resolution's outcome and calls are those of the undisturbed run. -/
theorem resolveDelivered_true :
    (resolveDelivered service key snapshot true).resolution =
        (resolveDelivered service key snapshot false).resolution ∧
      (resolveDelivered service key snapshot true).calls =
        (resolveDelivered service key snapshot false).calls ∧
      (resolveDelivered service key snapshot true).delivered =
        (resolveDelivered service key snapshot false).delivered.take 1 := by
  refine ⟨rfl, rfl, ?_⟩
  rw [resolveDelivered_false_delivered]
  -- the loading state is the one state published before the call, if there is a call at all
  rcases resolve_cases service key snapshot with ⟨reason, h⟩ | ⟨p, url, -, h⟩ | ⟨p, e, h⟩ <;>
    simp [resolveDelivered, h, Delivery.run, Delivery.publish, Delivery.setAlive]

/-- Teardown at any moments. Whatever the snapshot, key and service, and wherever teardowns fall
among the resolution's steps, the view receives exactly the states published before the first
teardown: a prefix of what an undisturbed view receives. Teardown as the service is called leaves
the loading state only. The resolution and its calls are those of the undisturbed run. -/
theorem delivered_eq_published_before_teardown (moments : List Moment)
    (hsteps : Moment.steps moments = (resolve service key snapshot).2) :
    (Delivery.live {} moments).delivered =
        Event.published (Moment.steps (moments.takeWhile Moment.isStep)) ∧
      (Delivery.live {} moments).delivered <+: (resolveDelivered service key snapshot false).delivered ∧
      Event.calls (Moment.steps moments) = (resolveDelivered service key snapshot false).calls ∧
      (resolveDelivered service key snapshot true).resolution =
        (resolveDelivered service key snapshot false).resolution ∧
      (resolveDelivered service key snapshot true).calls =
        (resolveDelivered service key snapshot false).calls ∧
      (resolveDelivered service key snapshot true).delivered =
        (resolveDelivered service key snapshot false).delivered.take 1 := by
  have hlive : (Delivery.live {} moments).delivered =
      Event.published (Moment.steps (moments.takeWhile Moment.isStep)) := by
    simp [Delivery.live_delivered]
  refine ⟨hlive, ?_, by rw [hsteps]; rfl, resolveDelivered_true service key snapshot⟩
  calc (Delivery.live {} moments).delivered
      = Event.published (Moment.steps (moments.takeWhile Moment.isStep)) := hlive
    _ <+: Event.published (Moment.steps moments) := published_before_teardown_isPrefix moments
    _ = Event.published (resolve service key snapshot).2 := by rw [hsteps]
    _ = (resolveDelivered service key snapshot false).delivered :=
      (resolveDelivered_false_delivered service key snapshot).symm

/-- A snapshot binding `resource_find`, and a view torn down while the service is called: the view
receives the loading state only. -/
theorem teardown_during_call_delivers_loading :
    Moment.steps [.step (.publish { loading := true }),
        .step (.call (.object [("foo", .number (.nat 1))])), .teardown,
        .step (.publish { url := "https://access.example/apply" })] =
      (resolve (fun _ => .ok "https://access.example/apply") (some "resource_find")
        (some ⟨[("resource_find", .object [("foo", .number (.nat 1))])]⟩)).2 ∧
    (Delivery.live {} [.step (.publish { loading := true }),
        .step (.call (.object [("foo", .number (.nat 1))])), .teardown,
        .step (.publish { url := "https://access.example/apply" })]).delivered =
      [{ loading := true }] := by
  have hsteps : Moment.steps [.step (.publish { loading := true }),
        .step (.call (.object [("foo", .number (.nat 1))])), .teardown,
        .step (.publish { url := "https://access.example/apply" })] =
      (resolve (fun _ => .ok "https://access.example/apply") (some "resource_find")
        (some ⟨[("resource_find", .object [("foo", .number (.nat 1))])]⟩)).2 := rfl
  exact ⟨hsteps, (delivered_eq_published_before_teardown _ _ _ _ hsteps).1⟩

end AccessRequest
