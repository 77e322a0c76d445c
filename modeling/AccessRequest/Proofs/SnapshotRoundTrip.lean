import AccessRequest.Proofs.Json.Render
import AccessRequest.Proofs.SnapshotText

/-!
A printed snapshot reads back as itself. The snapshot is printed as an object whose one member
`urlParams` holds the payloads, in whatever order the map is walked; reading that text gives
the payloads back, provided they hold integers only and nest within the reader's room counted
with the two objects around them. A snapshot that was read is canonical and nested within the
room already, so when its payloads hold no binary64 number, printing and reading it again gives
it back: reading is a fixed point on what it produced.
-/

namespace AccessRequest.Snapshot

open Json

/-! ### What reading gives -/

/-- The `urlParams` object of a member list is read within the snapshot's room. -/
theorem params_built_of_membersText {pairs : List (String × Value)} {first : Bool}
    {cs r : List Char} {names : List String} (h : MembersText (ParamsMember pairs) first cs names r)
    (hin : "urlParams" ∈ names) : Built (.fields true) (innerRoom - 1) pairs := by
  induction h with
  | close => exact absurd hin List.not_mem_nil
  | @member _ _ _ _ _ _ _ name names _ _ _ hmember _ ih =>
      by_cases hname : name = "urlParams"
      · cases hmember with
        | params _ hfields => exact hfields.built
        | other hne => exact absurd hname hne
      · exact ih ((List.mem_cons.mp hin).resolve_left (Ne.symm hname))

/-- The payloads of a snapshot text are canonical and leave two levels of the room free. -/
theorem SnapshotText.built {pairs : List (String × Value)} {cs : List Char}
    (h : SnapshotText pairs cs) : Built (.fields true) (innerRoom - 1) pairs := by
  cases h with
  | object _ hm hcount _ => exact params_built_of_membersText hm (List.count_pos_iff.mp (by omega))
  | objectWithout => exact fun _ hm => absurd hm List.not_mem_nil
  | emptyArray => exact fun _ hm => absurd hm List.not_mem_nil
  | array _ _ hfields _ _ => exact hfields.built

/-- A snapshot that was read is canonical, and nested within the reader's room. -/
theorem read_canonical {text : String} {s : Snapshot} (h : read text = .ok s) :
    s.toValue.Canonical ∧ s.toValue.depth < nestingRoom := by
  obtain ⟨pairs, htext, hparams⟩ := snapshotText_of_read h
  have hbuilt := htext.built
  -- the payloads are those of the pairs, whose keys now strictly ascend
  have hpayloads : ∀ m ∈ s.urlParams, m.2.Canonical ∧ m.2.depth ≤ innerRoom - 1 - 1 :=
    fun m hm => hbuilt m (Members.mem_of_mem_ofPairs (hparams ▸ hm))
  have hsorted : s.urlParams.Pairwise fun a b => a.1 < b.1 :=
    hparams ▸ Members.ofPairs_pairwise_lt pairs
  have hinner : (Value.object s.urlParams).Canonical :=
    .object hsorted fun m hm => (hpayloads m hm).1
  have hinnerDepth : (Value.object s.urlParams).depth ≤ innerRoom - 1 - 1 + 1 :=
    Value.depth_object_le_iff.mpr fun m hm => (hpayloads m hm).2
  have hdepth : s.toValue.depth ≤ innerRoom - 1 - 1 + 1 + 1 :=
    Value.depth_object_le_iff.mpr fun m hm => List.mem_singleton.mp hm ▸ hinnerDepth
  refine ⟨.object (List.pairwise_singleton _ _) fun m hm =>
    List.mem_singleton.mp hm ▸ hinner, ?_⟩
  exact Nat.lt_of_le_of_lt hdepth (by decide)

/-! ### Printing and reading back -/

/-- The text of a snapshot whose payloads are printed in the order `ps`. -/
theorem render_toValue (ps : Members) : (toValue ⟨ps⟩).render.toList =
    '{' :: '"' :: ("urlParams".toList.flatMap escapeChar ++ '"' :: ':' :: '{' ::
      ((renderMembers ps).toList ++ '}' :: ['}'])) := by
  simp [toValue, Value.render, renderMembers, quote]

/-- A snapshot printed with its payloads in any order, all of them canonical with integers only
and nested within the room, reads back as itself. -/
theorem read_render_toValue {s : Snapshot} (hc : s.toValue.Canonical) (hf : s.toValue.FloatFree)
    (hd : s.toValue.depth < nestingRoom) {ps : Members} (hps : ps.Perm s.urlParams) :
    read (toValue ⟨ps⟩).render = .ok s := by
  -- the payloads fit the room left inside the snapshot's two objects
  obtain ⟨-, -, houter⟩ := fits_of_object hc hf hd
  obtain ⟨hpc, hpf, hpd⟩ := houter ("urlParams", .object s.urlParams) List.mem_cons_self
  obtain ⟨-, hsorted, hpayloads⟩ := fits_of_object hpc hpf hpd
  have hfits : ∀ m ∈ ps, m.2.Canonical ∧ m.2.FloatFree ∧ m.2.depth < innerRoom - 1 :=
    fun m hm => hpayloads m (hps.subset hm)
  have htext : SnapshotText ps (toValue ⟨ps⟩).render.toList := by
    rw [render_toValue]
    exact .object (.done _) (.member (.done _) (strRest_escaped _ _) (.done _)
      (.params (.done _) (fieldsText_render ps hfits)) (.close (.done _))) (by decide) (.done _)
  have hread := read_of_snapshotText htext
  rwa [Members.ofPairs_eq_of_perm hps hsorted] at hread

/-- Printing a snapshot and reading it back gives the snapshot, whatever the order its payloads
are printed in, when the payloads are canonical, hold integers only and nest within the reader's
room counted with the snapshot's two objects; and a snapshot read from a text, when its payloads
hold no binary64 number, is printed in any order as a text that reads back as the same
snapshot. -/
theorem read_render_roundtrip :
    (∀ (s : Snapshot) (ps : Members), s.toValue.Canonical → s.toValue.FloatFree →
        s.toValue.depth < nestingRoom → ps.Perm s.urlParams →
          read (toValue ⟨ps⟩).render = .ok s) ∧
      ∀ (text : String) (s : Snapshot), read text = .ok s → s.toValue.FloatFree →
        ∀ ps : Members, ps.Perm s.urlParams → read (toValue ⟨ps⟩).render = .ok s := by
  refine ⟨fun s ps hc hf hd hps => read_render_toValue hc hf hd hps,
    fun text s h hf ps hps => ?_⟩
  obtain ⟨hc, hd⟩ := read_canonical h
  exact read_render_toValue hc hf hd hps

/-- A snapshot with a nested object, a negative integer and `null` among its payloads. -/
def nestedSnapshot : Snapshot :=
  ⟨[("a", .object [("x", .bool true)]),
    ("b", .array [.number (.nat 1), .number (.neg (-2)), .null])]⟩

/-- The nested snapshot, printed with its payloads in reverse order, reads back as itself; so
does the text that reading gave, printed in order. -/
theorem nested_snapshot_reads_back :
    nestedSnapshot.toValue.Canonical ∧ nestedSnapshot.toValue.FloatFree ∧
      nestedSnapshot.toValue.depth < nestingRoom ∧
      read (toValue ⟨nestedSnapshot.urlParams.reverse⟩).render = .ok nestedSnapshot ∧
      read nestedSnapshot.toValue.render = .ok nestedSnapshot := by
  have hc : nestedSnapshot.toValue.Canonical := by decide
  have hf : nestedSnapshot.toValue.FloatFree := by decide
  have hd : nestedSnapshot.toValue.depth < nestingRoom := by decide
  have hreversed := read_render_roundtrip.1 nestedSnapshot _ hc hf hd (List.reverse_perm _)
  exact ⟨hc, hf, hd, hreversed,
    read_render_roundtrip.2 _ nestedSnapshot hreversed hf _ (List.Perm.refl _)⟩

end AccessRequest.Snapshot
