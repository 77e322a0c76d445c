import AccessRequest.RouteKey
import AccessRequest.Proofs.Utf8Infix

/-!
Normalizing a route identifier against a marker table is a first-match rule: the key of the
earliest entry whose marker occurs in the identifier as a contiguous piece, or the identifier
itself when none does. Occurrence is the same on characters and on UTF-8 bytes, the empty marker
occurs everywhere, and duplicate entries change nothing but which of them is reached first.
-/

namespace AccessRequest

/-- The occurrence test is contiguous occurrence. -/
theorem occursIn_eq_true_iff (marker text : List Char) :
    occursIn marker text = true ↔ marker <:+: text := by
  induction text with
  | nil => simp [occursIn]
  | cons c rest ih =>
      rw [occursIn, Bool.or_eq_true, List.isPrefixOf_iff_prefix, ih, List.infix_cons_iff]

theorem occursIn_eq_false_iff (marker text : List Char) :
    occursIn marker text = false ↔ ¬ marker <:+: text := by
  rw [← occursIn_eq_true_iff, Bool.not_eq_true]

@[simp] theorem normalizeWith_nil (raw : String) : normalizeWith raw [] = raw := rfl

/-- The table is read in order: the first entry decides when its marker occurs, -/
theorem normalizeWith_cons_of_occurs {raw marker : String} (key : String)
    (rest : List (String × String)) (h : marker.toList <:+: raw.toList) :
    normalizeWith raw ((marker, key) :: rest) = key := by
  have hm : occursIn marker.toList raw.toList = true := (occursIn_eq_true_iff _ _).mpr h
  simp [normalizeWith, hm]

/-- and leaves the decision to the rest of the table when it does not. -/
theorem normalizeWith_cons_of_not_occurs {raw marker : String} (key : String)
    (rest : List (String × String)) (h : ¬ marker.toList <:+: raw.toList) :
    normalizeWith raw ((marker, key) :: rest) = normalizeWith raw rest := by
  have hm : occursIn marker.toList raw.toList = false := (occursIn_eq_false_iff _ _).mpr h
  simp only [normalizeWith, List.find?_cons, hm]

/-- The entry at the least index whose marker occurs gives the key. The induction is on the
table: the entries before that index are passed over, as their markers do not occur. -/
theorem normalizeWith_of_least {raw : String} {markers : List (String × String)} {i : Nat}
    (hi : i < markers.length) (hoccurs : markers[i].1.toList <:+: raw.toList)
    (hbefore : ∀ j (hj : j < i), ¬ markers[j].1.toList <:+: raw.toList) :
    normalizeWith raw markers = markers[i].2 := by
  induction markers generalizing i with
  | nil => simp at hi
  | cons e rest ih =>
      obtain ⟨marker, key⟩ := e
      cases i with
      | zero => exact normalizeWith_cons_of_occurs key rest hoccurs
      | succ i =>
          have hfirst : ¬ marker.toList <:+: raw.toList := hbefore 0 (Nat.succ_pos i)
          rw [normalizeWith_cons_of_not_occurs key rest hfirst]
          exact ih (Nat.lt_of_succ_lt_succ hi) hoccurs
            (fun j hj => hbefore (j + 1) (Nat.succ_lt_succ hj))

/-- With no marker occurring, the identifier stays as it is. -/
theorem normalizeWith_of_none_occurs {raw : String} {markers : List (String × String)}
    (hnone : ∀ e ∈ markers, ¬ e.1.toList <:+: raw.toList) : normalizeWith raw markers = raw := by
  induction markers with
  | nil => rfl
  | cons e rest ih =>
      obtain ⟨marker, key⟩ := e
      rw [normalizeWith_cons_of_not_occurs key rest (hnone _ List.mem_cons_self)]
      exact ih (fun e he => hnone e (List.mem_cons_of_mem _ he))

/-- The first-match rule. For every table, duplicates and empty markers allowed, and every
identifier: the key of the entry at the least index whose marker occurs in the identifier, on
characters or equally on UTF-8 bytes; the identifier itself when no marker occurs. The standard
table looks for the operate marker, then the find marker, and no identifier stays none. -/
theorem normalizeWith_first_occurring (raw : String) (markers : List (String × String)) :
    (∀ i (hi : i < markers.length), markers[i].1.toList <:+: raw.toList →
        (∀ j (hj : j < i), ¬ markers[j].1.toList <:+: raw.toList) →
        normalizeWith raw markers = markers[i].2) ∧
      ((∀ e ∈ markers, ¬ e.1.toList <:+: raw.toList) → normalizeWith raw markers = raw) ∧
      (∀ m : String, m.toList <:+: raw.toList ↔ m.toUTF8.data.toList <:+: raw.toUTF8.data.toList) ∧
      ("iaas_resource_operate".toList <:+: raw.toList →
        normalizeRouteKey raw = "iaas_resource_operate") ∧
      (¬ "iaas_resource_operate".toList <:+: raw.toList → "resource_find".toList <:+: raw.toList →
        normalizeRouteKey raw = "resource_find") ∧
      (¬ "iaas_resource_operate".toList <:+: raw.toList → ¬ "resource_find".toList <:+: raw.toList →
        normalizeRouteKey raw = raw) ∧
      (none : Option String).map normalizeRouteKey = none := by
  refine ⟨fun i hi hoccurs hbefore => normalizeWith_of_least hi hoccurs hbefore,
    normalizeWith_of_none_occurs, fun m => Utf8.infix_iff_toUTF8_infix m raw, ?_, ?_, ?_, rfl⟩
  · intro hoperate
    exact normalizeWith_cons_of_occurs _ _ hoperate
  · intro hoperate hfind
    rw [normalizeRouteKey, routeKeyMarkers, normalizeWith_cons_of_not_occurs _ _ hoperate]
    exact normalizeWith_cons_of_occurs _ _ hfind
  · intro hoperate hfind
    rw [normalizeRouteKey, routeKeyMarkers, normalizeWith_cons_of_not_occurs _ _ hoperate,
      normalizeWith_cons_of_not_occurs _ _ hfind, normalizeWith_nil]

end AccessRequest
