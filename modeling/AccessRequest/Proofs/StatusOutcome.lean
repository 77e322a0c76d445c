import AccessRequest.Proofs.ResolveTrace
import AccessRequest.Api.Response

/-!
How a response's status and body decide a resolution. The access service answers from the
response it receives: a status from 200 to 299 hands the body to the answer reader, 401 and 403
are an authentication error naming the status, and any other status is a server error holding the
body as it is. A resolution whose lookup hits then resolves exactly for a success status whose
body reads as a non-empty URL; the authentication failure drops the body, so its outcome and the
text it publishes are the same for every body; a success status whose body does not read, or reads
as the empty URL, fails with a parse error.
-/

namespace AccessRequest

section Status

variable {status : UInt16} (body : String)

/-- The success statuses are exactly those with no error. -/
theorem statusError_eq_none_iff :
    statusError status body = none ↔ 200 ≤ status.toNat ∧ status.toNat ≤ 299 := by
  unfold statusError
  split
  · simp [*]
  · split <;> simp [*]

theorem statusError_of_success (h : 200 ≤ status.toNat ∧ status.toNat ≤ 299) :
    statusError status body = none :=
  (statusError_eq_none_iff body).mpr h

/-- 401 and 403 name the status and drop the body. -/
theorem statusError_of_auth (h : status = 401 ∨ status = 403) :
    statusError status body =
      some (.auth ("access URL request rejected with " ++ Nat.repr status.toNat)) := by
  have hrange : ¬ (200 ≤ status.toNat ∧ status.toNat ≤ 299) := by
    rcases h with rfl | rfl <;> decide
  simp [statusError, hrange, h]

/-- Any other failing status keeps the body as the message. -/
theorem statusError_of_server (hrange : ¬ (200 ≤ status.toNat ∧ status.toNat ≤ 299))
    (h401 : status ≠ 401) (h403 : status ≠ 403) :
    statusError status body = some (.server status body) := by
  simp [statusError, hrange, h401, h403]

end Status

namespace AccessUrl

/-- Reading an answer fails only with a parse error. -/
theorem parseResponse_eq_error {body : String} {e : ApiError}
    (h : parseResponse body = .error e) : ∃ m, e = .parse m := by
  unfold parseResponse at h
  cases hr : read body with
  | error err =>
      rw [hr] at h
      exact ⟨err.message, (Except.error.inj h).symm⟩
  | ok url =>
      rw [hr] at h
      cases h

theorem answerOfResponse_of_success {status : UInt16} (body : String)
    (h : 200 ≤ status.toNat ∧ status.toNat ≤ 299) :
    answerOfResponse status body = parseResponse body := by
  simp [answerOfResponse, statusError_of_success body h]

theorem answerOfResponse_of_statusError {status : UInt16} {body : String} {e : ApiError}
    (h : statusError status body = some e) : answerOfResponse status body = .error e := by
  simp [answerOfResponse, h]

end AccessUrl

variable (service : Json.Value → Except ApiError String) (key : Option String)
  (snapshot : Option Snapshot) {p : Json.Value}

/-- After a hit, the outcome is a URL exactly when the service answers that URL and it is not
empty. -/
theorem resolve_resolved_iff (hhit : Snapshot.lookup snapshot key = .ok p) (u : String) :
    (resolve service key snapshot).1 = .resolved u ↔ service p = .ok u ∧ u ≠ "" := by
  rw [← acceptUrl_eq_ok_iff]
  cases ha : acceptUrl (service p) with
  | ok url => simp [resolve_of_accept_ok service key snapshot hhit ha, eq_comm]
  | error e => simp [resolve_of_accept_error service key snapshot hhit ha]

/-- After a hit, an error answer is the outcome, and its text is the final state published. -/
theorem resolve_of_answer_error (hhit : Snapshot.lookup snapshot key = .ok p) {e : ApiError}
    (he : service p = .error e) :
    resolve service key snapshot =
      (.failed e, [.publish { loading := true }, .call p, .publish { failure := some e.display }]) :=
  resolve_of_accept_error service key snapshot hhit (acceptUrl_eq_error_iff.mpr (.inl he))

/-- The outcome of a resolution whose lookup hits, for every response status from 0 to 65535 and
every body the service receives. It resolves to `u` exactly for a status from 200 to 299 whose
body reads as the non-empty URL `u`. For 401 and 403 it fails with the authentication error
naming the status, publishing that error's text, the same for every body. For every other status
outside 200–299 it fails with the server error holding the body verbatim. For a success status it
fails with a parse error when the body does not read, and with the parse error `empty access URL`
when it reads as the empty URL. -/
theorem resolve_outcome_of_response_status (status : UInt16) (body : String)
    (hhit : Snapshot.lookup snapshot key = .ok p)
    (hanswer : service p = AccessUrl.answerOfResponse status body) :
    (∀ u, (resolve service key snapshot).1 = .resolved u ↔
        200 ≤ status.toNat ∧ status.toNat ≤ 299 ∧ AccessUrl.parseResponse body = .ok u ∧
          u ≠ "") ∧
      (status = 401 ∨ status = 403 →
        resolve service key snapshot =
          (.failed (.auth ("access URL request rejected with " ++ Nat.repr status.toNat)),
            [.publish { loading := true }, .call p,
              .publish ⟨"", false,
                some ("Auth error: access URL request rejected with " ++ Nat.repr status.toNat)⟩])) ∧
      (¬ (200 ≤ status.toNat ∧ status.toNat ≤ 299) → status ≠ 401 → status ≠ 403 →
        resolve service key snapshot =
          (.failed (.server status body),
            [.publish { loading := true }, .call p,
              .publish { failure := some (ApiError.server status body).display }])) ∧
      (200 ≤ status.toNat ∧ status.toNat ≤ 299 →
        (∀ e, AccessUrl.parseResponse body = .error e →
          ∃ m, e = .parse m ∧ (resolve service key snapshot).1 = .failed (.parse m)) ∧
        (AccessUrl.parseResponse body = .ok "" →
          (resolve service key snapshot).1 = .failed (.parse "empty access URL"))) := by
  refine ⟨fun u => ?_, fun hauth => ?_, fun hrange h401 h403 => ?_, fun hsuccess => ⟨?_, ?_⟩⟩
  · rw [resolve_resolved_iff service key snapshot hhit, hanswer]
    -- a failing status answers an error, so only a success status can resolve
    by_cases hsuccess : 200 ≤ status.toNat ∧ status.toNat ≤ 299
    · simp [AccessUrl.answerOfResponse_of_success body hsuccess, hsuccess]
    · obtain ⟨e, he⟩ := Option.ne_none_iff_exists'.mp
        (mt (statusError_eq_none_iff body).mp hsuccess)
      rw [AccessUrl.answerOfResponse_of_statusError he]
      simp only [reduceCtorEq, false_and, false_iff]
      exact fun ⟨hlow, hhigh, _⟩ => hsuccess ⟨hlow, hhigh⟩
  · have he := AccessUrl.answerOfResponse_of_statusError (statusError_of_auth body hauth)
    rw [resolve_of_answer_error service key snapshot hhit (hanswer.trans he)]
    rfl
  · have he := AccessUrl.answerOfResponse_of_statusError
      (statusError_of_server body hrange h401 h403)
    exact resolve_of_answer_error service key snapshot hhit (hanswer.trans he)
  · intro e hparse
    obtain ⟨m, rfl⟩ := AccessUrl.parseResponse_eq_error hparse
    have he : service p = .error (.parse m) := by
      rw [hanswer, AccessUrl.answerOfResponse_of_success body hsuccess, hparse]
    exact ⟨m, rfl, by rw [resolve_of_answer_error service key snapshot hhit he]⟩
  · intro hempty
    have hanswered : service p = .ok "" := by
      rw [hanswer, AccessUrl.answerOfResponse_of_success body hsuccess, hempty]
    have ha : acceptUrl (service p) = .error (.parse "empty access URL") :=
      acceptUrl_eq_error_iff.mpr (.inr ⟨hanswered, rfl⟩)
    rw [resolve_of_accept_error service key snapshot hhit ha]

/-- A snapshot binding `resource_find` and a 403 response: the resolution fails with the
authentication error naming 403, whatever the body said. -/
theorem forbidden_response_fails_auth :
    Snapshot.lookup (some ⟨[("resource_find", .object [])]⟩) (some "resource_find") =
        .ok (.object []) ∧
      resolve (fun _ => AccessUrl.answerOfResponse 403 "login required") (some "resource_find")
          (some ⟨[("resource_find", .object [])]⟩) =
        (.failed (.auth ("access URL request rejected with " ++ Nat.repr (403 : UInt16).toNat)),
          [.publish { loading := true }, .call (.object []),
            .publish ⟨"", false,
              some ("Auth error: access URL request rejected with " ++ Nat.repr (403 : UInt16).toNat)⟩]) :=
  ⟨rfl, (resolve_outcome_of_response_status _ _ _ 403 "login required" rfl rfl).2.1 (.inr rfl)⟩

end AccessRequest
