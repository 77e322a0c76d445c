import AccessRequest.Proofs.Json.Values
import AccessRequest.Proofs.Json.LastWins
import AccessRequest.Proofs.ResolveTrace
import AccessRequest.Snapshot.Read

/-!
The snapshot texts the reader accepts, as grammar, and what looking a key up in them gives. The
reader takes, between blanks, an object whose members have string names, at most one of them
`urlParams` with an object of payloads as its value, the others any well-formed value; or an array
that is empty or holds one object of payloads. The payloads are read within the snapshot's
nesting room, as the value reader reads them. A key's payload is the value of its last pair in the
`urlParams` object, and looking it up gives that payload unless it is `null`.
-/

namespace AccessRequest.Snapshot

open Json

/-- A member of a snapshot object: `urlParams` with an object of the pairs `pairs`, read within the
snapshot's nesting room, or another name with any well-formed value. -/
inductive ParamsMember (pairs : List (String × Value)) : String → List Char → List Char → Prop
  | params {v inner r : List Char} : Blank v ('{' :: inner) →
      ValueText (.fields true) (innerRoom - 1) inner pairs r → ParamsMember pairs "urlParams" v r
  | other {name : String} {v w r : List Char} : name ≠ "urlParams" → Blank v w → Form .value w r →
      ParamsMember pairs name v r

/-- What the members still to come must hold once `found` is read, for the payloads `ms` to be
the result: at most one `urlParams` member when none was read, with the pairs `pairs`, or none
and no pairs; and none more when one was read, whose payloads are then the result. -/
def ParamsAhead (pairs : List (String × Value)) (names : List String) (ms : Members) :
    Option Members → Prop
  | none => ms = Members.ofPairs pairs ∧
      (names.count "urlParams" = 1 ∨ ("urlParams" ∉ names ∧ pairs = []))
  | some found => ms = found ∧ "urlParams" ∉ names

/-- A snapshot text whose `urlParams` object holds `pairs`: between blanks, an object with one
member `urlParams` holding them, or with none and no pairs, its other members having string names
and well-formed values; or an array, empty, or of one object holding them. -/
inductive SnapshotText : List (String × Value) → List Char → Prop
  | object {pairs : List (String × Value)} {cs inner r : List Char} {names : List String} :
      Blank cs ('{' :: inner) → MembersText (ParamsMember pairs) true inner names r →
      names.count "urlParams" = 1 → Blank r [] → SnapshotText pairs cs
  | objectWithout {cs inner r : List Char} {names : List String} : Blank cs ('{' :: inner) →
      MembersText (ParamsMember []) true inner names r → "urlParams" ∉ names → Blank r [] →
      SnapshotText [] cs
  | emptyArray {cs inner r : List Char} : Blank cs ('[' :: inner) → Blank inner (']' :: r) →
      Blank r [] → SnapshotText [] cs
  | array {pairs : List (String × Value)} {cs inner obj after r : List Char} :
      Blank cs ('[' :: inner) → Blank inner ('{' :: obj) →
      ValueText (.fields true) (innerRoom - 1) obj pairs after → Blank after (']' :: r) →
      Blank r [] → SnapshotText pairs cs

theorem one_lt_innerRoom : 1 < innerRoom := by decide

/-- Changing the pairs a member list would give `urlParams` changes nothing when it has none. -/
theorem membersText_params_irrelevant {pairs pairs' : List (String × Value)} {first : Bool}
    {cs r : List Char} {names : List String} (h : MembersText (ParamsMember pairs) first cs names r)
    (hnone : "urlParams" ∉ names) : MembersText (ParamsMember pairs') first cs names r := by
  induction h with
  | close hb => exact .close hb
  | member hlead hkey hcolon hmember _ ih =>
      simp only [List.mem_cons, not_or] at hnone
      cases hmember with
      | params => exact absurd rfl hnone.1
      | other hne hbw hform =>
          exact .member hlead hkey hcolon (.other hne hbw hform) (ih hnone.2)

/-! ### One member of the snapshot object -/

section ReadFieldsSteps

variable {cs afterKey valueText rest : List Char} {first : Bool}

theorem readFields_close (hk : readKey cs first = .ok none) (found : Option Members) :
    readFields cs found first = .ok (found.getD [], afterObject cs) := by
  rw [readFields]
  split <;> rename_i heq <;> rw [hk] at heq <;> cases heq

theorem readFields_params {ms : Members}
    (hk : readKey cs first = .ok (some ("urlParams", afterKey)))
    (hc : readColon afterKey = .ok valueText)
    (hm : (readStringMap innerRoom valueText).map (Prod.map id Subtype.val) = .ok (ms, rest)) :
    readFields cs none first = readFields rest (some ms) false := by
  conv => lhs; rw [readFields.eq_def]
  split <;> rename_i heq <;> rw [hk] at heq <;> cases heq
  simp only [↓reduceIte]
  split <;> rename_i heq <;> rw [hc] at heq <;> cases heq
  revert hm
  rcases readStringMap innerRoom valueText with f | ⟨ms', rest', hrest⟩
  · intro hm
    cases hm
  · intro hm
    cases hm
    rfl

theorem readFields_other {key : String} {found : Option Members}
    (hk : readKey cs first = .ok (some (key, afterKey))) (hne : key ≠ "urlParams")
    (hc : readColon afterKey = .ok valueText)
    (hv : (skipValue valueText).map Subtype.val = .ok rest) :
    readFields cs found first = readFields rest found false := by
  conv => lhs; rw [readFields.eq_def]
  split <;> rename_i heq <;> rw [hk] at heq <;> cases heq
  simp only [hne, ↓reduceIte]
  split <;> rename_i heq <;> rw [hc] at heq <;> cases heq
  split <;> rename_i heq <;> rw [heq] at hv <;> cases hv
  rfl

end ReadFieldsSteps

theorem paramsAhead_cons_of_ne {pairs : List (String × Value)} {key : String}
    {names : List String} {ms : Members} {found : Option Members} (hne : key ≠ "urlParams") :
    ParamsAhead pairs (key :: names) ms found ↔ ParamsAhead pairs names ms found := by
  cases found with
  | none => simp [ParamsAhead, hne, Ne.symm hne]
  | some found => simp [ParamsAhead, Ne.symm hne]

/-! ### The members, read and well formed -/

/-- What `readFields` reads is a member list with the `urlParams` members the state still allows,
and the payloads it gives are those of that member's pairs. -/
theorem membersText_of_readFields {cs r : List Char} {found : Option Members} {first : Bool}
    {ms : Members} (h : readFields cs found first = .ok (ms, r)) :
    ∃ pairs names, MembersText (ParamsMember pairs) first cs names r ∧
      ParamsAhead pairs names ms found := by
  rw [readFields.eq_def] at h
  split at h
  · cases h
  · rename_i hk
    obtain ⟨r', hb⟩ := readKey_eq_none_iff.mp hk
    cases h
    rw [afterObject_of_close hb]
    refine ⟨[], [], .close hb, ?_⟩
    cases found with
    | none => exact ⟨Members.ofPairs_nil.symm, .inr ⟨List.not_mem_nil, rfl⟩⟩
    | some found => exact ⟨rfl, List.not_mem_nil⟩
  · rename_i key afterKey hk
    obtain ⟨k, hlead, hkey⟩ := readKey_eq_some_iff.mp hk
    have hkeyLen := readKey_length_lt hk
    simp only at h
    split at h
    · -- a `urlParams` member is read only when none was before it
      rename_i hparams
      subst hparams
      split at h
      · cases h
      split at h
      · cases h
      rename_i valueText hc
      split at h
      · cases h
      rename_i params rest hrest hm
      have hcolonLen := readColon_length_lt hc
      have hmap : (readStringMap innerRoom valueText).map (Prod.map id Subtype.val) =
          .ok (params, rest) := by rw [hm]; rfl
      obtain ⟨inner, pairs, hb, -, hpairs, rfl⟩ := readStringMap_eq_ok_iff.mp hmap
      obtain ⟨pairs', names, hm', rfl, hnone⟩ := membersText_of_readFields h
      refine ⟨pairs, "urlParams" :: names, .member hlead hkey (readColon_eq_ok_iff.mp hc)
        (.params hb hpairs) (membersText_params_irrelevant hm' hnone), rfl, .inl ?_⟩
      simp [List.count_eq_zero.mpr hnone]
    · rename_i hne
      split at h
      · cases h
      rename_i valueText hc
      split at h
      · cases h
      rename_i rest hrest hv
      have hcolonLen := readColon_length_lt hc
      have hskip : (skipValue valueText).map Subtype.val = .ok rest := by rw [hv]; rfl
      obtain ⟨pairs, names, hm, hahead⟩ := membersText_of_readFields h
      exact ⟨pairs, key :: names, .member hlead hkey (readColon_eq_ok_iff.mp hc)
        (.other hne (Blank.skipBlank_self _) (form_of_skipValue hskip)) hm,
        (paramsAhead_cons_of_ne hne).mpr hahead⟩
termination_by cs.length
decreasing_by all_goals omega

/-- A member list with the `urlParams` members the state allows is what `readFields` reads. -/
theorem readFields_of_membersText {pairs : List (String × Value)} {first : Bool} {cs r : List Char}
    {names : List String} (h : MembersText (ParamsMember pairs) first cs names r) :
    ∀ found ms, ParamsAhead pairs names ms found → readFields cs found first = .ok (ms, r) := by
  induction h with
  | close hb =>
      rintro (_ | found) ms hahead
      · obtain ⟨rfl, hcount | ⟨-, rfl⟩⟩ := hahead
        · simp at hcount
        · rw [readFields_close (readKey_eq_none_iff.mpr ⟨_, hb⟩), afterObject_of_close hb,
            Members.ofPairs_nil]
          rfl
      · obtain ⟨rfl, -⟩ := hahead
        rw [readFields_close (readKey_eq_none_iff.mpr ⟨_, hb⟩), afterObject_of_close hb]
        rfl
  | @member first cs k afterKey v after r name names hlead hkey hcolon hmember hrest ih =>
      intro found ms hahead
      have hk := readKey_eq_some_iff.mpr ⟨_, hlead, hkey⟩
      have hc := readColon_eq_ok_iff.mpr hcolon
      cases hmember with
      | params hb hpairs =>
          cases found with
          | some found => simp [ParamsAhead] at hahead
          | none =>
              obtain ⟨rfl, hcount⟩ := hahead
              have hnone : "urlParams" ∉ names := by
                rcases hcount with hcount | ⟨hnot, -⟩
                · exact List.count_eq_zero.mp (by simpa using hcount)
                · exact absurd List.mem_cons_self hnot
              have hmap := readStringMap_eq_ok_iff.mpr ⟨_, pairs, hb, one_lt_innerRoom, hpairs, rfl⟩
              rw [readFields_params hk hc hmap]
              exact ih (some _) _ ⟨rfl, hnone⟩
      | other hne hbw hform =>
          rw [readFields_other hk hne hc
            ((skipValue_eq_ok_iff hrest.delimited).mpr ⟨_, hbw, hform⟩)]
          exact ih found ms ((paramsAhead_cons_of_ne hne).mp hahead)

/-! ### The snapshot array and the whole snapshot -/

theorem readElements_eq_ok_iff {cs r : List Char} {ms : Members} :
    readElements cs = .ok (ms, r) ↔ (Blank cs (']' :: r) ∧ ms = []) ∨
      ∃ obj, ∃ pairs : List (String × Value), ∃ after, Blank cs ('{' :: obj) ∧
        ValueText (.fields true) (innerRoom - 1) obj pairs after ∧ Blank after (']' :: r) ∧
        ms = Members.ofPairs pairs := by
  constructor
  · intro h
    unfold readElements at h
    split at h
    · cases h
    · cases hc : closeArray cs with
      | error f => simp [hc, Except.map] at h
      | ok r' =>
          simp only [hc, Except.map, Except.ok.injEq, Prod.mk.injEq] at h
          obtain ⟨rfl, rfl⟩ := h
          exact .inl ⟨closeArray_eq_ok_iff.mp hc, rfl⟩
    · rename_i c rest _ hb
      obtain ⟨⟨params, after⟩, hm, h⟩ := bind_eq_ok h
      obtain ⟨after', hc, h⟩ := bind_eq_ok h
      cases h
      have hmap : (readStringMap innerRoom (c :: rest)).map (Prod.map id Subtype.val) =
          .ok (ms, after.val) := by rw [hm]; rfl
      obtain ⟨obj, pairs, hobj, -, hpairs, rfl⟩ := readStringMap_eq_ok_iff.mp hmap
      exact .inr ⟨obj, pairs, after.val, (Blank.of_skipBlank_eq hb).trans hobj, hpairs,
        closeArray_eq_ok_iff.mp hc, rfl⟩
  · rintro (⟨hb, rfl⟩ | ⟨obj, pairs, after, hb, hpairs, hclose, rfl⟩)
    · rw [readElements, hb.skipBlank_eq_cons (by decide)]
      simp [closeArray_eq_ok_iff.mpr hb, Except.map]
    · have hmap := readStringMap_eq_ok_iff.mpr ⟨obj, pairs, .done _, one_lt_innerRoom, hpairs, rfl⟩
      rw [readElements, hb.skipBlank_eq_cons (by decide)]
      cases hm : readStringMap innerRoom ('{' :: obj) with
      | error f =>
          rw [hm] at hmap
          cases hmap
      | ok p =>
          rw [hm] at hmap
          obtain ⟨params, after', hafter⟩ := p
          cases hmap
          simp [hm, closeArray_eq_ok_iff.mpr hclose, bind, Except.bind, pure, Except.pure]
          rfl

/-- A snapshot is read with the payloads read for it. -/
theorem map_snapshot_eq_ok_iff {x : Except Fault (Members × List Char)} {s : Snapshot}
    {r : List Char} : (x.map fun p => ((⟨p.1⟩ : Snapshot), p.2)) = .ok (s, r) ↔
      x = .ok (s.urlParams, r) := by
  cases x with
  | error f => exact ⟨fun h => (nomatch h), fun h => (nomatch h)⟩
  | ok p =>
      obtain ⟨params, r'⟩ := p
      obtain ⟨ms⟩ := s
      simp [Except.map]

theorem readFront_eq_ok_iff {cs r : List Char} {s : Snapshot} :
    readFront cs = .ok (s, r) ↔
      (∃ inner, Blank cs ('{' :: inner) ∧ readFields inner none true = .ok (s.urlParams, r)) ∨
        ∃ inner, Blank cs ('[' :: inner) ∧ readElements inner = .ok (s.urlParams, r) := by
  constructor
  · intro h
    unfold readFront at h
    split at h
    · cases h
    · rename_i inner hb
      exact .inl ⟨inner, Blank.of_skipBlank_eq hb, map_snapshot_eq_ok_iff.mp h⟩
    · rename_i inner hb
      exact .inr ⟨inner, Blank.of_skipBlank_eq hb, map_snapshot_eq_ok_iff.mp h⟩
    · cases h
  · rintro (⟨inner, hb, hf⟩ | ⟨inner, hb, he⟩)
    · rw [readFront, hb.skipBlank_eq_cons (by decide)]
      exact map_snapshot_eq_ok_iff.mpr hf
    · rw [readFront, hb.skipBlank_eq_cons (by decide)]
      exact map_snapshot_eq_ok_iff.mpr he

/-- The snapshot of a text whose `urlParams` object holds `pairs`. -/
theorem read_of_snapshotText {pairs : List (String × Value)} {text : String}
    (h : SnapshotText pairs text.toList) : read text = .ok ⟨Members.ofPairs pairs⟩ := by
  -- each form gives the front of the text and blanks after it
  have hfront : ∃ r, readFront text.toList = .ok (⟨Members.ofPairs pairs⟩, r) ∧ Blank r [] := by
    cases h with
    | object hb hm hcount hend =>
        exact ⟨_, readFront_eq_ok_iff.mpr (.inl ⟨_, hb,
          readFields_of_membersText hm none _ ⟨rfl, .inl hcount⟩⟩), hend⟩
    | objectWithout hb hm hnone hend =>
        exact ⟨_, readFront_eq_ok_iff.mpr (.inl ⟨_, hb,
          readFields_of_membersText hm none _ ⟨rfl, .inr ⟨hnone, rfl⟩⟩⟩), hend⟩
    | emptyArray hb hclose hend =>
        exact ⟨_, readFront_eq_ok_iff.mpr (.inr ⟨_, hb,
          readElements_eq_ok_iff.mpr (.inl ⟨hclose, Members.ofPairs_nil⟩)⟩), hend⟩
    | array hb hobj hpairs hclose hend =>
        exact ⟨_, readFront_eq_ok_iff.mpr (.inr ⟨_, hb,
          readElements_eq_ok_iff.mpr (.inr ⟨_, _, _, hobj, hpairs, hclose, rfl⟩)⟩), hend⟩
  unfold read
  rw [mapError_eq_ok_iff]
  exact front_bind_expectEnd_eq_ok_iff.mpr hfront

/-- A text that is read is a snapshot text, whose `urlParams` pairs give the payloads. -/
theorem snapshotText_of_read {text : String} {s : Snapshot} (h : read text = .ok s) :
    ∃ pairs, SnapshotText pairs text.toList ∧ s.urlParams = Members.ofPairs pairs := by
  unfold read at h
  rw [mapError_eq_ok_iff] at h
  obtain ⟨rest, hf, hend⟩ := front_bind_expectEnd_eq_ok_iff.mp h
  rcases readFront_eq_ok_iff.mp hf with ⟨inner, hb, hfields⟩ | ⟨inner, hb, helems⟩
  · obtain ⟨pairs, names, hm, hparams, hcount⟩ := membersText_of_readFields hfields
    rcases hcount with hcount | ⟨hnone, rfl⟩
    · exact ⟨pairs, .object hb hm hcount hend, hparams⟩
    · exact ⟨[], .objectWithout hb hm hnone hend, hparams⟩
  · rcases readElements_eq_ok_iff.mp helems with ⟨hclose, hempty⟩ |
      ⟨obj, pairs, after, hobj, hpairs, hclose, hparams⟩
    · exact ⟨[], .emptyArray hb hclose hend, by rw [hempty, Members.ofPairs_nil]⟩
    · exact ⟨pairs, .array hb hobj hpairs hclose hend, hparams⟩

theorem read_eq_ok_iff {text : String} {s : Snapshot} :
    read text = .ok s ↔
      ∃ pairs, SnapshotText pairs text.toList ∧ s.urlParams = Members.ofPairs pairs := by
  constructor
  · exact snapshotText_of_read
  · rintro ⟨pairs, htext, hparams⟩
    obtain ⟨params⟩ := s
    simp only at hparams
    subst hparams
    exact read_of_snapshotText htext

/-! ### Looking a key up -/

/-- Looking a key up in the payloads built from pairs gives its last pair's value, unless that is
`null`. -/
theorem lookup_ofPairs_eq_ok_iff (pairs : List (String × Value)) (k : String) (v : Value) :
    lookup (some ⟨Members.ofPairs pairs⟩) (some k) = .ok v ↔
      Members.get? k pairs.reverse = some v ∧ v.isNull = false := by
  rw [lookup_eq_ok_iff]
  simp [paramsFor, Members.get?_ofPairs]

theorem lookup_ofPairs_eq_unknownKey_iff (pairs : List (String × Value)) (k : String) :
    lookup (some ⟨Members.ofPairs pairs⟩) (some k) = .error .unknownKey ↔
      ∀ v, Members.get? k pairs.reverse = some v → v.isNull = true := by
  cases hget : Members.get? k pairs.reverse with
  | none => simp [lookup, paramsFor, Members.get?_ofPairs, hget]
  | some p => cases hp : p.isNull <;> simp [lookup, paramsFor, Members.get?_ofPairs, hget, hp]

/-- Snapshot texts and what looking a key up in them gives: a text is read exactly when it is a
snapshot text, and its payloads are built from the pairs of its `urlParams` object; looking a key
up in them gives the value of the key's last pair unless it is `null`, and an unknown key
otherwise. -/
theorem read_snapshot_lookup_last_pair :
    (∀ text s, read text = .ok s ↔
        ∃ pairs, SnapshotText pairs text.toList ∧ s.urlParams = Members.ofPairs pairs) ∧
      ∀ (pairs : List (String × Value)) (k : String),
        (∀ v, lookup (some ⟨Members.ofPairs pairs⟩) (some k) = .ok v ↔
          Members.get? k pairs.reverse = some v ∧ v.isNull = false) ∧
        (lookup (some ⟨Members.ofPairs pairs⟩) (some k) = .error .unknownKey ↔
          ∀ v, Members.get? k pairs.reverse = some v → v.isNull = true) :=
  ⟨fun _ _ => read_eq_ok_iff, fun pairs k =>
    ⟨lookup_ofPairs_eq_ok_iff pairs k, lookup_ofPairs_eq_unknownKey_iff pairs k⟩⟩

/-- A snapshot whose one payload is a number beyond the binary64 range. -/
def outOfRangeSnapshot : String := "\x7b\"urlParams\": \x7b\"k\": 1e400\x7d\x7d"

/-- A payload number beyond the binary64 range is well-formed JSON in a well-formed `urlParams`
object, and the snapshot is refused. -/
theorem out_of_range_payload_refused :
    (∃ v, Json.Blank outOfRangeSnapshot.toList v ∧ Form .value v []) ∧
      ∃ e, read outOfRangeSnapshot = .error e := by
  constructor
  · exact form_of_skipValue_toOption (by decide +kernel)
  · have hrefused : (read outOfRangeSnapshot).toBool = false := by decide +kernel
    cases h : read outOfRangeSnapshot with
    | error e => exact ⟨e, rfl⟩
    | ok s =>
        rw [h] at hrefused
        cases hrefused

end AccessRequest.Snapshot
