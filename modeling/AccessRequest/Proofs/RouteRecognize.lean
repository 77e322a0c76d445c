import AccessRequest.Route
import AccessRequest.Proofs.Percent

/-!
Recognition of paths against the application's route table. `Matches` states the table on its
own terms: `/403`, `/403/:id` and `/404`, each with an optional leading slash and an optional
trailing slash, where `:id` is one non-empty segment without a slash whose percent-decoded bytes
are UTF-8. Main statements: a path leads to the route it matches, and to the not-found page when
it matches none (`recognize_eq_iff`); and the path of every route leads back to that route,
except for the empty identifier, whose path `/403/` is the access-denied page without one.
-/

namespace AccessRequest.Route

/-- At most one slash: what may stand before and after a route's pattern. -/
def OptSlash (s : String) : Prop := s = "" ∨ s = "/"

/-- A path segment that can stand for `:id`: non-empty and without a slash. -/
def IsSegment (seg : String) : Prop := seg ≠ "" ∧ '/' ∉ seg.toList

/-- The routes of the application's table that a path matches. The identifier of `/403/:id` is
its segment percent-decoded; a segment whose bytes do not decode matches nothing. -/
inductive Matches : String → Route → Prop
  | forbidden {lead trail : String} : OptSlash lead → OptSlash trail →
      Matches (lead ++ "403" ++ trail) .forbidden
  | forbiddenFor {lead trail seg id : String} : OptSlash lead → OptSlash trail → IsSegment seg →
      Url.percentDecode seg = some id → Matches (lead ++ "403/" ++ seg ++ trail) (.forbiddenFor id)
  | notFound {lead trail : String} : OptSlash lead → OptSlash trail →
      Matches (lead ++ "404" ++ trail) .notFound

/-- Trimming gives back a pattern that neither starts nor ends with a slash, whatever single
slashes stood around it. -/
theorem trimSlashes_wrap {lead trail : String} (hl : OptSlash lead) (ht : OptSlash trail)
    {c : Char} {rest : List Char} (hc : c ≠ '/') (hlast : (c :: rest).getLast? ≠ some '/') :
    trimSlashes (lead.toList ++ c :: rest ++ trail.toList) = c :: rest := by
  have hdrop : (if (lead.toList ++ c :: rest ++ trail.toList).getLast? = some '/' then
      (lead.toList ++ c :: rest ++ trail.toList).dropLast
      else lead.toList ++ c :: rest ++ trail.toList) = lead.toList ++ c :: rest := by
    rcases ht with rfl | rfl
    · simp only [String.toList_empty, List.append_nil]
      rw [if_neg (by simpa [List.getLast?_append] using hlast)]
    · rw [if_pos (by rw [List.getLast?_append]; rfl), show ("/" : String).toList = ['/'] from rfl,
        List.dropLast_concat]
  unfold trimSlashes
  simp only
  rw [hdrop]
  rcases hl with rfl | rfl
  · simp only [String.toList_empty, List.nil_append]
    split
    · next h => exact absurd (List.cons.inj h).1 hc
    · rfl
  · rfl

/-- Every path is its trimmed form with at most one slash put back at each end. -/
theorem exists_wrap_trimSlashes (cs : List Char) :
    ∃ lead trail : String, OptSlash lead ∧ OptSlash trail ∧
      cs = lead.toList ++ trimSlashes cs ++ trail.toList := by
  unfold trimSlashes
  simp only
  obtain ⟨trail, ht, hmid⟩ : ∃ trail : String, OptSlash trail ∧
      cs = (if cs.getLast? = some '/' then cs.dropLast else cs) ++ trail.toList := by
    split
    · next h =>
      obtain ⟨ys, rfl⟩ := List.getLast?_eq_some_iff.1 h
      exact ⟨"/", .inr rfl, by rw [List.dropLast_concat]; rfl⟩
    · exact ⟨"", .inl rfl, by simp⟩
  generalize (if cs.getLast? = some '/' then cs.dropLast else cs) = mid at hmid ⊢
  split
  · exact ⟨"/", trail, .inr rfl, ht, hmid⟩
  · exact ⟨"", trail, .inl rfl, ht, by simpa using hmid⟩

theorem ofSegments_segment {seg id : String} (hs : IsSegment seg)
    (hd : Url.percentDecode seg = some id) :
    ofSegments ('4' :: '0' :: '3' :: '/' :: seg.toList) = .forbiddenFor id := by
  rw [ofSegments, if_neg (by simpa [IsSegment] using hs), String.ofList_toList, hd]

/-- The routes a trimmed path leads to, with what each one needs. -/
theorem ofSegments_cases (core : List Char) :
    core = ['4', '0', '3'] ∧ ofSegments core = .forbidden ∨
    (∃ seg id, core = '4' :: '0' :: '3' :: '/' :: seg.toList ∧ IsSegment seg ∧
      Url.percentDecode seg = some id ∧ ofSegments core = .forbiddenFor id) ∨
    ofSegments core = .notFound := by
  fun_cases ofSegments core
  case case1 => exact .inl ⟨rfl, rfl⟩
  case case4 segment hs id hd =>
    exact .inr (.inl ⟨String.ofList segment, id, by simp, by simpa [IsSegment] using hs, hd, rfl⟩)
  all_goals exact .inr (.inr rfl)

/-- A segment closes the path it ends: the path's last character is no slash. -/
theorem IsSegment.getLast?_append_ne {seg : String} (hs : IsSegment seg) (pre : List Char) :
    (pre ++ seg.toList).getLast? ≠ some '/' := by
  intro h
  rw [List.getLast?_append] at h
  cases hl : seg.toList.getLast? with
  | none => exact hs.1 (String.toList_eq_nil_iff.1 (List.getLast?_eq_none_iff.1 hl))
  | some x =>
    rw [hl, Option.some_or, Option.some_inj] at h
    exact hs.2 (h ▸ List.mem_of_getLast? hl)

/-- A pattern that neither starts nor ends with a slash is recognized by itself, whatever single
slashes stand around it. -/
theorem recognize_wrap {lead trail core : String} (hl : OptSlash lead) (ht : OptSlash trail)
    {c : Char} {rest : List Char} (hcore : core.toList = c :: rest) (hc : c ≠ '/')
    (hlast : (c :: rest).getLast? ≠ some '/') :
    recognize (lead ++ core ++ trail) = ofSegments (c :: rest) := by
  rw [recognize, String.toList_append, String.toList_append, hcore,
    trimSlashes_wrap hl ht hc hlast]

/-- A path that matches a route of the table is recognized as that route. -/
theorem recognize_of_matches {p : String} {r : Route} (h : Matches p r) : recognize p = r := by
  cases h with
  | forbidden hl ht =>
    rw [recognize_wrap hl ht (show ("403" : String).toList = ['4', '0', '3'] from rfl)
      (by decide) (by decide)]
    rfl
  | @forbiddenFor lead trail seg id hl ht hs hd =>
    have hcore : ("403/" ++ seg).toList = '4' :: '0' :: '3' :: '/' :: seg.toList := by
      rw [String.toList_append]
      rfl
    have hassoc : lead ++ "403/" ++ seg = lead ++ ("403/" ++ seg) := String.append_assoc
    rw [hassoc, recognize_wrap hl ht hcore (by decide) (hs.getLast?_append_ne ['4', '0', '3', '/'])]
    exact ofSegments_segment hs hd
  | notFound hl ht =>
    rw [recognize_wrap hl ht (show ("404" : String).toList = ['4', '0', '4'] from rfl)
      (by decide) (by decide)]
    rfl

/-- A path recognized as a route other than the not-found page matches that route. -/
theorem matches_of_recognize_ne {p : String} (h : recognize p ≠ .notFound) :
    Matches p (recognize p) := by
  obtain ⟨lead, trail, hl, ht, hp⟩ := exists_wrap_trimSlashes p.toList
  have hwrap : p = lead ++ String.ofList (trimSlashes p.toList) ++ trail := by
    apply String.ext
    rw [String.toList_append, String.toList_append, String.toList_ofList]
    exact hp
  rw [recognize] at h ⊢
  rcases ofSegments_cases (trimSlashes p.toList) with
    ⟨hcore, hr⟩ | ⟨seg, id, hcore, hs, hd, hr⟩ | hr
  · rw [hr, hwrap, hcore]
    exact .forbidden hl ht
  · have hpath : String.ofList ('4' :: '0' :: '3' :: '/' :: seg.toList) = "403/" ++ seg := by
      apply String.ext
      simp
    rw [hr, hwrap, hcore, hpath, ← String.append_assoc]
    exact .forbiddenFor hl ht hs hd
  · exact absurd hr h

/-- Recognition in full: a path leads to the route it matches, and a path that matches no
route of the table leads to the not-found page. -/
theorem recognize_eq_iff (p : String) (r : Route) :
    recognize p = r ↔ Matches p r ∨ r = .notFound ∧ ∀ r', ¬ Matches p r' := by
  constructor
  · rintro rfl
    by_cases hnf : recognize p = .notFound
    · by_cases hm : ∃ r', Matches p r'
      · -- a matched route is the recognized one, so the not-found page is matched too
        obtain ⟨r', hr'⟩ := hm
        rw [← recognize_of_matches hr'] at hr'
        exact .inl hr'
      · exact .inr ⟨hnf, fun r' hr' => hm ⟨r', hr'⟩⟩
    · exact .inl (matches_of_recognize_ne hnf)
  · rintro (hm | ⟨rfl, hnone⟩)
    · exact recognize_of_matches hm
    · by_cases hne : recognize p = .notFound
      · exact hne
      · exact absurd (matches_of_recognize_ne hne) (hnone _)

theorem isSegment_percentEncode {id : String} (h : id ≠ "") : IsSegment (Url.percentEncode id) :=
  ⟨Url.percentEncode_ne_empty h, Url.slash_not_mem_percentEncode id⟩

/-- The path of every route matches that route, except for the empty identifier. -/
theorem matches_toPath {r : Route} (h : r ≠ .forbiddenFor "") : Matches r.toPath r := by
  cases r with
  | forbidden =>
    rw [show Route.forbidden.toPath = "/" ++ "403" ++ "" from rfl]
    exact .forbidden (.inr rfl) (.inl rfl)
  | forbiddenFor id =>
    have hid : id ≠ "" := fun he => h (by rw [he])
    rw [show (Route.forbiddenFor id).toPath = "/" ++ "403/" ++ Url.percentEncode id ++ "" by
      simp [toPath]]
    exact .forbiddenFor (.inr rfl) (.inl rfl) (isSegment_percentEncode hid)
      (Url.percentDecode_percentEncode id)
  | notFound =>
    rw [show Route.notFound.toPath = "/" ++ "404" ++ "" from rfl]
    exact .notFound (.inr rfl) (.inl rfl)

/-- Recognition is total and inverts `toPath`: every path leads to the route of the table it
matches, and to the not-found page when it matches none; the path of every route leads back to
that route, an identifier coming back exactly as the link was built from it, as long as it is
not empty. -/
theorem recognize_total_inverts_toPath :
    (∀ p r, recognize p = r ↔ Matches p r ∨ r = .notFound ∧ ∀ r', ¬ Matches p r') ∧
      ∀ r, r ≠ .forbiddenFor "" → recognize r.toPath = r :=
  ⟨recognize_eq_iff, fun _ h => recognize_of_matches (matches_toPath h)⟩

/-- An identifier holding a slash, a space and a percent sign comes back from its link. -/
theorem escaped_identifier_link_recognized :
    Route.forbiddenFor "a/b %" ≠ .forbiddenFor "" ∧
      recognize (Route.forbiddenFor "a/b %").toPath = .forbiddenFor "a/b %" :=
  ⟨by decide, recognize_total_inverts_toPath.2 _ (by decide)⟩

/-- The empty identifier's link `/403/` is the access-denied page without an identifier. -/
example : recognize (Route.forbiddenFor "").toPath = .forbidden := by decide

end AccessRequest.Route
