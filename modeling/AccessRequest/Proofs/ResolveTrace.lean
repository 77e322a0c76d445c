import AccessRequest.Resolution
import AccessRequest.Proofs.ErrorText

/-!
What a resolution does, for every snapshot, key and answer of the access service. The lookup has
three outcomes: a missing snapshot, whatever the key; a payload, when the snapshot binds the key to
a payload other than `null`; and an unknown key in every other case. A miss ends the resolution
with no event. A hit publishes the loading state, calls the service once with the payload the
snapshot binds, and publishes one final state: the URL for a non-empty one, else the error's text
with no URL, an empty URL being a parse error.
-/

namespace AccessRequest

namespace Snapshot

variable {snapshot : Option Snapshot} {key : Option String}

@[simp] theorem lookup_none (key : Option String) : lookup none key = .error .missingSnapshot := rfl

theorem lookup_some_of_paramsFor {s : Snapshot} {k : String} {p : Json.Value}
    (hp : s.paramsFor k = some p) :
    lookup (some s) (some k) = if p.isNull then .error .unknownKey else .ok p := by
  simp [lookup, hp]

theorem lookup_eq_error_missingSnapshot_iff :
    lookup snapshot key = .error .missingSnapshot ↔ snapshot = none := by
  cases snapshot with
  | none => simp
  | some s =>
      simp only [reduceCtorEq, iff_false]
      cases key with
      | none => simp [lookup]
      | some k =>
          cases hp : s.paramsFor k with
          | none => simp [lookup, hp]
          | some p =>
              rw [lookup_some_of_paramsFor hp]
              split <;> simp

theorem lookup_eq_ok_iff {p : Json.Value} :
    lookup snapshot key = .ok p ↔
      ∃ s k, snapshot = some s ∧ key = some k ∧ s.paramsFor k = some p ∧ p.isNull = false := by
  cases snapshot with
  | none => simp
  | some s =>
      cases key with
      | none => simp [lookup]
      | some k =>
          cases hp : s.paramsFor k with
          | none => simp [lookup, hp]
          | some q =>
              rw [lookup_some_of_paramsFor hp]
              by_cases hq : q.isNull
              · simp only [hq, if_true, reduceCtorEq, false_iff]
                rintro ⟨_, _, ⟨⟩, ⟨⟩, hp', hnull⟩
                rw [hp, Option.some.injEq] at hp'
                subst hp'
                simp [hq] at hnull
              · simp [hq, hp]
                rintro rfl
                simpa using hq

/-- A lookup has one of three outcomes. -/
theorem lookup_trichotomy (snapshot : Option Snapshot) (key : Option String) :
    lookup snapshot key = .error .missingSnapshot ∨ lookup snapshot key = .error .unknownKey ∨
      ∃ p, lookup snapshot key = .ok p := by
  cases h : lookup snapshot key with
  | error reason => cases reason <;> simp
  | ok p => simp

/-- The key is unknown exactly when the snapshot is there but binds the key to no payload, or to
`null`. -/
theorem lookup_eq_error_unknownKey_iff :
    lookup snapshot key = .error .unknownKey ↔
      snapshot ≠ none ∧ ∀ s k p, snapshot = some s → key = some k → s.paramsFor k = some p →
        p.isNull = true := by
  have hmissing := @lookup_eq_error_missingSnapshot_iff snapshot key
  have hok := fun p => @lookup_eq_ok_iff snapshot key p
  constructor
  · intro h
    refine ⟨fun hn => by simp [hmissing.mpr hn] at h, ?_⟩
    rintro s k p rfl rfl hp
    cases hnull : p.isNull with
    | true => rfl
    | false => simp [(hok p).mpr ⟨s, k, rfl, rfl, hp, hnull⟩] at h
  · rintro ⟨hsome, hnull⟩
    rcases lookup_trichotomy snapshot key with h | h | ⟨p, h⟩
    · exact absurd (hmissing.mp h) hsome
    · exact h
    · obtain ⟨s, k, hs, hk, hp, hq⟩ := (hok p).mp h
      simp [hnull s k p hs hk hp] at hq

end Snapshot

/-- The service's answer kept: a non-empty URL. -/
theorem acceptUrl_eq_ok_iff {answer : Except ApiError String} {url : String} :
    acceptUrl answer = .ok url ↔ answer = .ok url ∧ url ≠ "" := by
  unfold acceptUrl
  split
  · simp
  · rename_i other hnot
    constructor
    · intro h
      subst h
      exact ⟨rfl, fun he => hnot (by rw [he])⟩
    · rintro ⟨rfl, -⟩
      rfl

/-- The service's answer refused: its own error, or a parse error for an empty URL. -/
theorem acceptUrl_eq_error_iff {answer : Except ApiError String} {e : ApiError} :
    acceptUrl answer = .error e ↔
      answer = .error e ∨ answer = .ok "" ∧ e = .parse "empty access URL" := by
  unfold acceptUrl
  split
  · simp [eq_comm]
  · rename_i other hnot
    constructor
    · intro h
      exact .inl h
    · rintro (h | ⟨h, -⟩)
      · exact h
      · exact absurd h hnot

variable (service : Json.Value → Except ApiError String) (key : Option String)
  (snapshot : Option Snapshot)

theorem resolve_of_lookup_error {reason : NoAction}
    (h : Snapshot.lookup snapshot key = .error reason) :
    resolve service key snapshot = (.noAction reason, []) := by
  simp [resolve, h]

theorem resolve_of_accept_ok {p : Json.Value} {url : String}
    (h : Snapshot.lookup snapshot key = .ok p) (ha : acceptUrl (service p) = .ok url) :
    resolve service key snapshot =
      (.resolved url, [.publish { loading := true }, .call p, .publish { url := url }]) := by
  simp [resolve, h, ha]

theorem resolve_of_accept_error {p : Json.Value} {e : ApiError}
    (h : Snapshot.lookup snapshot key = .ok p) (ha : acceptUrl (service p) = .error e) :
    resolve service key snapshot =
      (.failed e, [.publish { loading := true }, .call p, .publish { failure := some e.display }]) := by
  simp [resolve, h, ha]

/-- A resolution ends in one of three ways: a miss, with no event; a non-empty URL, after the
loading state and the call; or an error, after the loading state and the call. -/
theorem resolve_cases :
    (∃ reason, resolve service key snapshot = (.noAction reason, [])) ∨
    (∃ p url, url ≠ "" ∧ resolve service key snapshot =
      (.resolved url, [.publish { loading := true }, .call p, .publish { url := url }])) ∨
    (∃ p e, resolve service key snapshot =
      (.failed e, [.publish { loading := true }, .call p, .publish { failure := some e.display }])) := by
  cases h : Snapshot.lookup snapshot key with
  | error reason => exact .inl ⟨reason, resolve_of_lookup_error service key snapshot h⟩
  | ok p =>
      cases ha : acceptUrl (service p) with
      | ok url =>
          have hne := (acceptUrl_eq_ok_iff.mp ha).2
          exact .inr (.inl ⟨p, url, hne, resolve_of_accept_ok service key snapshot h ha⟩)
      | error e => exact .inr (.inr ⟨p, e, resolve_of_accept_error service key snapshot h ha⟩)

/-- The whole behaviour of a resolution. The lookup misses for a missing snapshot, whatever the
key, finds the payload a present snapshot binds to the key unless it is `null`, and otherwise
finds the key unknown. A miss is the resolution's outcome and nothing is published or called. A
hit publishes the loading state, calls the service once with that very payload and publishes a
final state that is not loading: the URL of a non-empty answer, which is the outcome, or else no
URL and the text of the error, the service's own or a parse error for an empty URL. -/
theorem resolve_trace :
    (Snapshot.lookup snapshot key = .error .missingSnapshot ↔ snapshot = none) ∧
    (∀ p, Snapshot.lookup snapshot key = .ok p ↔
      ∃ s k, snapshot = some s ∧ key = some k ∧ s.paramsFor k = some p ∧ p.isNull = false) ∧
    (Snapshot.lookup snapshot key = .error .unknownKey ↔
      snapshot ≠ none ∧ ∀ s k p, snapshot = some s → key = some k → s.paramsFor k = some p →
        p.isNull = true) ∧
    (∀ reason, Snapshot.lookup snapshot key = .error reason →
      resolve service key snapshot = (.noAction reason, [])) ∧
    (∀ p, Snapshot.lookup snapshot key = .ok p →
      (∀ url, service p = .ok url → url ≠ "" →
        resolve service key snapshot = (.resolved url,
          [.publish ⟨"", true, none⟩, .call p, .publish ⟨url, false, none⟩])) ∧
      (∀ e, service p = .error e ∨ service p = .ok "" ∧ e = .parse "empty access URL" →
        resolve service key snapshot = (.failed e,
          [.publish ⟨"", true, none⟩, .call p, .publish ⟨"", false, some e.display⟩]))) := by
  refine ⟨Snapshot.lookup_eq_error_missingSnapshot_iff, fun _ => Snapshot.lookup_eq_ok_iff,
    Snapshot.lookup_eq_error_unknownKey_iff, fun _ h => resolve_of_lookup_error service key
      snapshot h, fun p h => ⟨?_, ?_⟩⟩
  · intro url hurl hne
    exact resolve_of_accept_ok service key snapshot h (acceptUrl_eq_ok_iff.mpr ⟨hurl, hne⟩)
  · intro e he
    exact resolve_of_accept_error service key snapshot h (acceptUrl_eq_error_iff.mpr he)

/-- The text a failed resolution publishes last names its error: the final state carries the
error's text, and no other error has that text. -/
theorem failed_final_text_names_error {e : ApiError} {events : List Event}
    (h : resolve service key snapshot = (.failed e, events)) :
    ∃ st, events.getLast? = some (.publish st) ∧ st.failure = some e.display ∧
      ∀ e', st.failure = some e'.display → e' = e := by
  rcases resolve_cases service key snapshot with
    ⟨reason, hr⟩ | ⟨p, url, -, hr⟩ | ⟨p, failure, hr⟩
  · rw [hr] at h
    cases h
  · rw [hr] at h
    cases h
  · -- the run is the failing one: its last event publishes the error's text
    rw [hr, Prod.mk.injEq, Resolution.failed.injEq] at h
    obtain ⟨rfl, rfl⟩ := h
    refine ⟨_, rfl, rfl, fun e' he => ?_⟩
    exact (ApiError.eq_of_display_eq (Option.some.inj he)).symm

end AccessRequest
