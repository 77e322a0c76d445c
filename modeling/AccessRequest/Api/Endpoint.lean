/-!
Where the access-URL call goes. The address is the base URL without its trailing slashes,
followed by the endpoint path as it is. The lemmas say that the part kept is the base less a run
of slashes, that it ends in no slash, and that slashes added to the base change nothing.
-/

namespace AccessRequest

/-- The path of the endpoint that turns a parameter payload into a request-access URL. -/
def accessUrlEndpoint : String := "/api/auth/action-url"

/-- The browsing context a request-access URL is opened in. -/
def accessUrlTarget : String := "_blank"

/-- The id of the page element that carries the snapshot text. -/
def snapshotElementId : String := "permission-snapshot"

/-- The characters of `cs` without its trailing slashes. -/
def dropTrailingSlashes (cs : List Char) : List Char :=
  (cs.reverse.dropWhile (· = '/')).reverse

/-- Trailing slashes added to a text are dropped with its own. -/
theorem dropTrailingSlashes_append_replicate (cs : List Char) (m : Nat) :
    dropTrailingSlashes (cs ++ List.replicate m '/') = dropTrailingSlashes cs := by
  simp [dropTrailingSlashes, List.reverse_append, List.reverse_replicate]

/-- A text is its part without trailing slashes, then slashes only. -/
theorem eq_dropTrailingSlashes_append (cs : List Char) :
    ∃ n, cs = dropTrailingSlashes cs ++ List.replicate n '/' := by
  refine ⟨(cs.reverse.takeWhile (· = '/')).length, ?_⟩
  have hr : (cs.reverse.takeWhile (· = '/')) =
      List.replicate (cs.reverse.takeWhile (· = '/')).length '/' := by
    rw [List.eq_replicate_iff]
    refine ⟨rfl, fun b hb => ?_⟩
    simpa using List.all_eq_true.mp (List.all_takeWhile (p := (· = '/'))) b hb
  have := congrArg List.reverse (List.takeWhile_append_dropWhile (p := (· = '/')) (l := cs.reverse))
  rw [List.reverse_append, List.reverse_reverse] at this
  conv => lhs; rw [← this]
  rw [dropTrailingSlashes]
  congr 1
  conv => lhs; rw [hr]
  simp

/-- The part without trailing slashes does not end in a slash. -/
theorem getLast?_dropTrailingSlashes (cs : List Char) :
    (dropTrailingSlashes cs).getLast? ≠ some '/' := by
  rw [dropTrailingSlashes, List.getLast?_reverse]
  intro h
  have := List.head?_dropWhile_not (· = '/') cs.reverse
  rw [h] at this
  simp at this

/-- The address of `endpoint` at the server `base`. -/
def endpointUrl (base endpoint : String) : String :=
  String.ofList (dropTrailingSlashes base.toList) ++ endpoint

end AccessRequest
