import AccessRequest.Proofs.RouteKey
import AccessRequest.PageFlow

/-!
When normalizing twice is normalizing once. A marker table's entry is reachable when no earlier
marker occurs in its own marker; an unreachable entry is shadowed by an earlier one on every
identifier that contains its marker, so it never decides. Normalizing is idempotent on every
identifier exactly when each reachable entry's key normalizes to itself: the identifier equal to a
reachable marker normalizes to that entry's key, and an identifier normalized by an entry makes
that entry reachable. The standard table, whose keys are their own markers, is idempotent, so the
access-denied page's flow is the same for a route identifier and for its key.
-/

namespace AccessRequest

/-- Entry `i` of a marker table is reachable: no earlier marker occurs in its marker. -/
def Reachable (markers : List (String × String)) (i : Nat) (hi : i < markers.length) : Prop :=
  ∀ e ∈ markers.take i, ¬ e.1.toList <:+: markers[i].1.toList

/-- No marker before index `i` occurs, read entry by entry. -/
theorem not_occurs_of_take {markers : List (String × String)} {i : Nat} {text : List Char}
    (h : ∀ e ∈ markers.take i, ¬ e.1.toList <:+: text) (j : Nat) (hj : j < i)
    (hjl : j < markers.length) : ¬ markers[j].1.toList <:+: text := by
  apply h
  rw [List.mem_iff_getElem]
  have hjtake : j < (markers.take i).length := by
    rw [List.length_take]
    exact Nat.lt_min.mpr ⟨hj, hjl⟩
  exact ⟨j, hjtake, by simp⟩

/-- What normalizing does, in one of two ways: no marker occurs and the identifier stays, or the
entry at the least index whose marker occurs gives the key. -/
theorem normalizeWith_cases (raw : String) (markers : List (String × String)) :
    ((∀ e ∈ markers, ¬ e.1.toList <:+: raw.toList) ∧ normalizeWith raw markers = raw) ∨
      ∃ i, ∃ hi : i < markers.length, markers[i].1.toList <:+: raw.toList ∧
        (∀ e ∈ markers.take i, ¬ e.1.toList <:+: raw.toList) ∧
        normalizeWith raw markers = markers[i].2 := by
  induction markers with
  | nil => exact .inl ⟨by simp, rfl⟩
  | cons e rest ih =>
      obtain ⟨marker, key⟩ := e
      by_cases hm : marker.toList <:+: raw.toList
      · exact .inr ⟨0, by simp, hm, by simp, normalizeWith_cons_of_occurs key rest hm⟩
      · rw [normalizeWith_cons_of_not_occurs key rest hm]
        rcases ih with ⟨hnone, hstays⟩ | ⟨i, hi, hoccurs, hbefore, hkey⟩
        · refine .inl ⟨?_, hstays⟩
          rintro e (_ | ⟨_, he⟩)
          · exact hm
          · exact hnone e he
        · refine .inr ⟨i + 1, Nat.succ_lt_succ hi, hoccurs, ?_, hkey⟩
          rintro e (_ | ⟨_, he⟩)
          · exact hm
          · exact hbefore e he

/-- The entry that normalizes an identifier is reachable: an earlier marker inside its marker
would occur in the identifier too. -/
theorem reachable_of_least {raw : String} {markers : List (String × String)} {i : Nat}
    (hi : i < markers.length) (hoccurs : markers[i].1.toList <:+: raw.toList)
    (hbefore : ∀ e ∈ markers.take i, ¬ e.1.toList <:+: raw.toList) :
    Reachable markers i hi :=
  fun e he hinside => hbefore e he (hinside.trans hoccurs)

/-- A reachable marker normalizes to its own entry's key. -/
theorem normalizeWith_marker_of_reachable {markers : List (String × String)} {i : Nat}
    (hi : i < markers.length) (hreach : Reachable markers i hi) :
    normalizeWith markers[i].1 markers = markers[i].2 :=
  normalizeWith_of_least hi (List.infix_refl _) fun j hj => not_occurs_of_take hreach j hj _

/-- Normalizing is idempotent on every identifier exactly when every reachable entry's key is a
fixed point. -/
theorem normalizeWith_idempotent_iff (markers : List (String × String)) :
    (∀ raw, normalizeWith (normalizeWith raw markers) markers = normalizeWith raw markers) ↔
      ∀ i (hi : i < markers.length), Reachable markers i hi →
        normalizeWith markers[i].2 markers = markers[i].2 := by
  constructor
  · intro hidem i hi hreach
    -- normalize the marker itself: once gives the key, twice gives the key's normal form
    have honce := normalizeWith_marker_of_reachable hi hreach
    have htwice := hidem markers[i].1
    rwa [honce] at htwice
  · intro hfixed raw
    rcases normalizeWith_cases raw markers with ⟨-, hstays⟩ | ⟨i, hi, hoccurs, hbefore, hkey⟩
    · rw [hstays, hstays]
    · rw [hkey]
      exact hfixed i hi (reachable_of_least hi hoccurs hbefore)

/-- A table whose every key is its own marker is idempotent. -/
theorem normalizeWith_idempotent_of_keys_eq_markers {markers : List (String × String)}
    (hkeys : ∀ e ∈ markers, e.2 = e.1) (raw : String) :
    normalizeWith (normalizeWith raw markers) markers = normalizeWith raw markers := by
  refine (normalizeWith_idempotent_iff markers).mpr ?_ raw
  intro i hi hreach
  have hkey : markers[i].2 = markers[i].1 := hkeys _ (List.getElem_mem hi)
  calc normalizeWith markers[i].2 markers = normalizeWith markers[i].1 markers := by rw [hkey]
    _ = markers[i].2 := normalizeWith_marker_of_reachable hi hreach

@[simp] theorem normalizeRouteKey_normalizeRouteKey (raw : String) :
    normalizeRouteKey (normalizeRouteKey raw) = normalizeRouteKey raw := by
  have hkeys : ∀ e ∈ routeKeyMarkers, e.2 = e.1 := by simp [routeKeyMarkers]
  exact normalizeWith_idempotent_of_keys_eq_markers hkeys raw

/-- Idempotence of normalizing, for every table: it holds on all identifiers exactly when every
reachable entry (no earlier marker occurs in its marker) has a key that normalizes to itself. The
standard table is idempotent, so the access-denied page's flow, its key, outcome, delivered
states and calls included, is the same for a route identifier and for its key. -/
theorem normalizeWith_idempotent_iff_reachable_keys_fixed (markers : List (String × String)) :
    ((∀ raw, normalizeWith (normalizeWith raw markers) markers = normalizeWith raw markers) ↔
        ∀ i (hi : i < markers.length),
          (∀ e ∈ markers.take i, ¬ e.1.toList <:+: markers[i].1.toList) →
          normalizeWith markers[i].2 markers = markers[i].2) ∧
      (∀ raw, normalizeRouteKey (normalizeRouteKey raw) = normalizeRouteKey raw) ∧
      ∀ (service : Json.Value → Except ApiError String) (id text : Option String)
        (teardownOnCall : Bool),
        accessDeniedFlow service (id.map normalizeRouteKey) text teardownOnCall =
          accessDeniedFlow service id text teardownOnCall := by
  refine ⟨normalizeWith_idempotent_iff markers, normalizeRouteKey_normalizeRouteKey, ?_⟩
  intro service id text teardownOnCall
  cases id with
  | none => rfl
  | some raw => simp [accessDeniedFlow]

end AccessRequest
