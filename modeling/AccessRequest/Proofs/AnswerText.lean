import AccessRequest.Proofs.Json.Fields
import AccessRequest.Proofs.StatusOutcome
import AccessRequest.Json.Print

/-!
The answers of the access-URL endpoint, as grammar. The reader takes, between blanks, an object
whose members have string names, exactly one of them `url` with a string value and the others any
well-formed value; or an array of exactly one string. Every member's name must decode as a
string, so a name holding a lone surrogate escape is refused even where the member's value would
be skipped. Every failure is a parse error, and the answer object written for any URL reads back
as that URL.
-/

namespace AccessRequest.AccessUrl

open Json

/-- A member of an answer object: `url` with a string for the URL `u`, or another name with any
well-formed value. -/
inductive AnswerMember (u : String) : String → List Char → List Char → Prop
  | url {v s r : List Char} : Blank v ('"' :: s) → StrRest s u.toList r → AnswerMember u "url" v r
  | other {name : String} {v w r : List Char} : name ≠ "url" → Blank v w → Form .value w r →
      AnswerMember u name v r

/-- What the members still to come must hold once `found` is read: one `url` member when none was
read, and none when one was, whose string is then the URL. -/
def UrlsAhead (u : String) (names : List String) : Option String → Prop
  | none => names.count "url" = 1
  | some url => url = u ∧ "url" ∉ names

/-- An answer text for the URL `u`: between blanks, an object with one member `url`, whose value is
a string for `u`, and other members with string names and any well-formed values; or an array of
one string for `u`. -/
inductive Answer (u : String) : List Char → Prop
  | object {cs inner r : List Char} {names : List String} : Blank cs ('{' :: inner) →
      MembersText (AnswerMember u) true inner names r → names.count "url" = 1 → Blank r [] →
      Answer u cs
  | array {cs inner s afterString r : List Char} : Blank cs ('[' :: inner) →
      Blank inner ('"' :: s) → StrRest s u.toList afterString → Blank afterString (']' :: r) →
      Blank r [] → Answer u cs

/-! ### One member of the answer object -/

section ReadFieldsSteps

variable {cs afterKey valueText rest : List Char} {first : Bool}

theorem readFields_close (hk : readKey cs first = .ok none) (url : String) :
    readFields cs (some url) first = .ok (url, afterObject cs) := by
  rw [readFields]
  split <;> rename_i heq <;> rw [hk] at heq <;> cases heq

theorem readFields_url {url : String} (hk : readKey cs first = .ok (some ("url", afterKey)))
    (hc : readColon afterKey = .ok valueText) (hs : readStringValue valueText = .ok (url, rest)) :
    readFields cs none first = readFields rest (some url) false := by
  conv => lhs; rw [readFields.eq_def]
  split <;> rename_i heq <;> rw [hk] at heq <;> cases heq
  simp only [↓reduceIte]
  split <;> rename_i heq <;> rw [hc] at heq <;> cases heq
  split <;> rename_i heq <;> rw [hs] at heq <;> cases heq
  rfl

theorem readFields_other {key : String} {found : Option String}
    (hk : readKey cs first = .ok (some (key, afterKey))) (hne : key ≠ "url")
    (hc : readColon afterKey = .ok valueText)
    (hv : (skipValue valueText).map Subtype.val = .ok rest) :
    readFields cs found first = readFields rest found false := by
  conv => lhs; rw [readFields.eq_def]
  split <;> rename_i heq <;> rw [hk] at heq <;> cases heq
  simp only [hne, ↓reduceIte]
  split <;> rename_i heq <;> rw [hc] at heq <;> cases heq
  split <;> rename_i heq <;> rw [heq] at hv <;> cases hv
  rfl

end ReadFieldsSteps

theorem urlsAhead_cons_of_ne {u key : String} {names : List String} {found : Option String}
    (hne : key ≠ "url") : UrlsAhead u (key :: names) found ↔ UrlsAhead u names found := by
  cases found with
  | none => simp [UrlsAhead, hne]
  | some url => simp [UrlsAhead, Ne.symm hne]

/-! ### The members, read and well formed -/

/-- What `readFields` reads is a member list with the `url` members the state still asks for. -/
theorem membersText_of_readFields {cs r : List Char} {found : Option String} {first : Bool}
    {u : String} (h : readFields cs found first = .ok (u, r)) :
    ∃ names, MembersText (AnswerMember u) first cs names r ∧ UrlsAhead u names found := by
  rw [readFields.eq_def] at h
  split at h
  · cases h
  · rename_i hk
    obtain ⟨r', hb⟩ := readKey_eq_none_iff.mp hk
    cases found with
    | none => cases h
    | some url =>
        cases h
        rw [afterObject_of_close hb]
        exact ⟨[], .close hb, rfl, List.not_mem_nil⟩
  · rename_i key afterKey hk
    obtain ⟨k, hlead, hkey⟩ := readKey_eq_some_iff.mp hk
    have hkeyLen := readKey_length_lt hk
    simp only at h
    split at h
    · -- a `url` member is read only when none was before it
      rename_i hurl
      subst hurl
      split at h
      · cases h
      split at h
      · cases h
      rename_i valueText hc
      split at h
      · cases h
      rename_i url rest hs
      have hcolonLen := readColon_length_lt hc
      have hstringLen := readStringValue_length_lt hs
      obtain ⟨names, hm, rfl, hnone⟩ := membersText_of_readFields h
      obtain ⟨s, hbs, hstr⟩ := readStringValue_eq_ok_iff.mp hs
      refine ⟨"url" :: names, .member hlead hkey (readColon_eq_ok_iff.mp hc) (.url hbs hstr) hm, ?_⟩
      simp [UrlsAhead, List.count_eq_zero.mpr hnone]
    · rename_i hne
      split at h
      · cases h
      rename_i valueText hc
      split at h
      · cases h
      rename_i rest hrest hv
      have hcolonLen := readColon_length_lt hc
      have hskip : (skipValue valueText).map Subtype.val = .ok rest := by rw [hv]; rfl
      obtain ⟨names, hm, hahead⟩ := membersText_of_readFields h
      exact ⟨key :: names, .member hlead hkey (readColon_eq_ok_iff.mp hc)
        (.other hne (Blank.skipBlank_self _) (form_of_skipValue hskip)) hm,
        (urlsAhead_cons_of_ne hne).mpr hahead⟩
termination_by cs.length
decreasing_by all_goals omega

/-- A member list with the `url` members the state asks for is what `readFields` reads. -/
theorem readFields_of_membersText {first : Bool} {cs r : List Char} {names : List String}
    {u : String} (h : MembersText (AnswerMember u) first cs names r) :
    ∀ found, UrlsAhead u names found → readFields cs found first = .ok (u, r) := by
  induction h with
  | close hb =>
      rintro (_ | url) hahead
      · simp [UrlsAhead] at hahead
      · obtain ⟨rfl, -⟩ := hahead
        rw [readFields_close (readKey_eq_none_iff.mpr ⟨_, hb⟩), afterObject_of_close hb]
  | member hlead hkey hcolon hmember hrest ih =>
      intro found hahead
      have hk := readKey_eq_some_iff.mpr ⟨_, hlead, hkey⟩
      have hc := readColon_eq_ok_iff.mpr hcolon
      cases hmember with
      | url hbs hstr =>
          cases found with
          | some url => simp [UrlsAhead] at hahead
          | none =>
              rw [readFields_url hk hc (readStringValue_eq_ok_iff.mpr ⟨_, hbs, hstr⟩)]
              have hnone : "url" ∉ _ := List.count_eq_zero.mp (by simpa [UrlsAhead] using hahead)
              exact ih (some u) ⟨rfl, hnone⟩
      | other hne hbw hform =>
          rw [readFields_other hk hne hc
            ((skipValue_eq_ok_iff hrest.delimited).mpr ⟨_, hbw, hform⟩)]
          exact ih found ((urlsAhead_cons_of_ne hne).mp hahead)

theorem readFields_eq_ok_iff {cs r : List Char} {first : Bool} {u : String} :
    readFields cs none first = .ok (u, r) ↔
      ∃ names, MembersText (AnswerMember u) first cs names r ∧ names.count "url" = 1 :=
  ⟨membersText_of_readFields, fun ⟨_, hm, hcount⟩ => readFields_of_membersText hm none hcount⟩

/-! ### The answer array and the whole answer -/

theorem readElements_eq_ok_iff {cs r : List Char} {u : String} :
    readElements cs = .ok (u, r) ↔ ∃ s afterString, Blank cs ('"' :: s) ∧
      StrRest s u.toList afterString ∧ Blank afterString (']' :: r) := by
  constructor
  · intro h
    unfold readElements at h
    split at h
    · cases h
    · cases h
    · rename_i c rest _ hb
      obtain ⟨⟨url, after⟩, hs, h⟩ := bind_eq_ok h
      obtain ⟨after', hc, h⟩ := bind_eq_ok h
      cases h
      obtain ⟨s, hbs, hstr⟩ := readStringValue_eq_ok_iff.mp hs
      exact ⟨s, after, (Blank.of_skipBlank_eq hb).trans hbs, hstr, closeArray_eq_ok_iff.mp hc⟩
  · rintro ⟨s, afterString, hb, hstr, hclose⟩
    have hs : readStringValue ('"' :: s) = .ok (u, afterString) :=
      readStringValue_eq_ok_iff.mpr ⟨s, .done _, hstr⟩
    rw [readElements, hb.skipBlank_eq_cons (by decide)]
    simp [hs, closeArray_eq_ok_iff.mpr hclose, bind, Except.bind, pure, Except.pure]

theorem readFront_eq_ok_iff {cs r : List Char} {u : String} :
    readFront cs = .ok (u, r) ↔
      (∃ inner names, Blank cs ('{' :: inner) ∧ MembersText (AnswerMember u) true inner names r ∧
          names.count "url" = 1) ∨
        ∃ inner s afterString, Blank cs ('[' :: inner) ∧ Blank inner ('"' :: s) ∧
          StrRest s u.toList afterString ∧ Blank afterString (']' :: r) := by
  constructor
  · intro h
    unfold readFront at h
    split at h
    · cases h
    · rename_i inner hb
      obtain ⟨names, hm, hcount⟩ := readFields_eq_ok_iff.mp h
      exact .inl ⟨inner, names, Blank.of_skipBlank_eq hb, hm, hcount⟩
    · rename_i inner hb
      obtain ⟨s, afterString, hbs, hstr, hclose⟩ := readElements_eq_ok_iff.mp h
      exact .inr ⟨inner, s, afterString, Blank.of_skipBlank_eq hb, hbs, hstr, hclose⟩
    · cases h
  · rintro (⟨inner, names, hb, hm, hcount⟩ | ⟨inner, s, afterString, hb, hbs, hstr, hclose⟩)
    · rw [readFront, hb.skipBlank_eq_cons (by decide)]
      exact readFields_eq_ok_iff.mpr ⟨names, hm, hcount⟩
    · rw [readFront, hb.skipBlank_eq_cons (by decide)]
      exact readElements_eq_ok_iff.mpr ⟨s, afterString, hbs, hstr, hclose⟩

/-- The reader accepts exactly the answer texts, and gives their URL. -/
theorem read_eq_ok_iff {text u : String} : read text = .ok u ↔ Answer u text.toList := by
  unfold read
  rw [mapError_eq_ok_iff]
  refine front_bind_expectEnd_eq_ok_iff.trans ⟨?_, ?_⟩
  · rintro ⟨rest, hf, hend⟩
    rcases readFront_eq_ok_iff.mp hf with ⟨inner, names, hb, hm, hcount⟩ |
      ⟨inner, s, afterString, hb, hbs, hstr, hclose⟩
    · exact .object hb hm hcount hend
    · exact .array hb hbs hstr hclose hend
  · intro h
    cases h with
    | object hb hm hcount hend =>
        exact ⟨_, readFront_eq_ok_iff.mpr (.inl ⟨_, _, hb, hm, hcount⟩), hend⟩
    | array hb hbs hstr hclose hend =>
        exact ⟨_, readFront_eq_ok_iff.mpr (.inr ⟨_, _, _, hb, hbs, hstr, hclose⟩), hend⟩

/-! ### The parse result of a body -/

theorem parseResponse_eq_ok_iff {body u : String} :
    parseResponse body = .ok u ↔ Answer u body.toList := by
  rw [parseResponse, mapError_eq_ok_iff, read_eq_ok_iff]

/-- Whatever the reader refuses is a parse error. -/
theorem parseResponse_ok_or_parse (body : String) :
    (∃ u, parseResponse body = .ok u) ∨ ∃ m, parseResponse body = .error (.parse m) := by
  cases h : parseResponse body with
  | ok u => exact .inl ⟨u, rfl⟩
  | error e =>
      obtain ⟨m, rfl⟩ := parseResponse_eq_error h
      exact .inr ⟨m, rfl⟩

/-! ### The answer object written for a URL -/

theorem render_urlObject (u : String) : (Value.object [("url", .string u)]).render.toList =
    '{' :: '"' :: 'u' :: 'r' :: 'l' :: '"' :: ':' :: '"' ::
      (u.toList.flatMap escapeChar ++ ['"', '}']) := by
  have hu : escapeChar 'u' = ['u'] := rfl
  have hr : escapeChar 'r' = ['r'] := rfl
  have hl : escapeChar 'l' = ['l'] := rfl
  simp [Value.render, renderMembers, quote, hu, hr, hl]

theorem strRest_url (r : List Char) : StrRest ('u' :: 'r' :: 'l' :: '"' :: r) "url".toList r := by
  have hurl : "url".toList = ['u', 'r', 'l'] := rfl
  rw [hurl]
  exact .plain (by decide) (by decide) (by decide)
    (.plain (by decide) (by decide) (by decide) (.plain (by decide) (by decide) (by decide) .close))

/-- The object written for a URL is an answer text for it, whatever characters the URL holds. -/
theorem answer_urlObject (u : String) :
    Answer u (Value.object [("url", .string u)]).render.toList := by
  rw [render_urlObject]
  exact .object (.done _)
    (.member (Blank.done _) (strRest_url _) (.done _)
      (.url (.done _) (strRest_escaped u.toList ['}'])) (.close (.done _)))
    (by decide) (.done [])

/-- The access-URL answers: the object written for any URL reads back as that URL; a body is
accepted exactly when it is an answer text (between blanks, an object with one `url` member
holding a string and other members with string names and well-formed values, or an array of one
string), and then for its URL; and whatever is refused is a parse error. -/
theorem parseResponse_accepts_answer_texts :
    (∀ u, parseResponse (Value.object [("url", .string u)]).render = .ok u) ∧
      (∀ body u, parseResponse body = .ok u ↔ Answer u body.toList) ∧
      ∀ body, (∃ u, parseResponse body = .ok u) ∨ ∃ m, parseResponse body = .error (.parse m) :=
  ⟨fun u => parseResponse_eq_ok_iff.mpr (answer_urlObject u), fun _ _ => parseResponse_eq_ok_iff,
    parseResponse_ok_or_parse⟩

/-- An answer object with one `url` member holding a string, and a second member named by a lone
trailing surrogate escape. -/
def surrogateNamedBody : String := "\x7b\"url\":\"a\",\"\\udc00\":0\x7d"

/-- A member named by a lone trailing surrogate escape is well-formed JSON, beside the one `url`
member holding a string; its name decodes to no string, and the body is refused. -/
theorem lone_surrogate_member_name_refused :
    (∃ v, Blank surrogateNamedBody.toList v ∧ Form .value v []) ∧
      ∃ m, parseResponse surrogateNamedBody = .error (.parse m) := by
  constructor
  · exact form_of_skipValue_toOption (by decide +kernel)
  · have hrefused : (parseResponse surrogateNamedBody).toBool = false := by
      decide +kernel
    rcases parseResponse_ok_or_parse surrogateNamedBody with ⟨u, hu⟩ | hparse
    · rw [hu] at hrefused
      cases hrefused
    · exact hparse

end AccessRequest.AccessUrl
