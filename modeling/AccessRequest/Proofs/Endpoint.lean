import AccessRequest.Api.Endpoint

/-!
The address of an endpoint is the base URL cut before its run of trailing slashes, followed by
the endpoint as it is. The part kept ends in no slash, so an endpoint that starts with one slash
is joined to a non-empty base by exactly one, and slashes added to the base change nothing.
-/

namespace AccessRequest

/-- The address is the base less its trailing slashes, which end in no slash, then the endpoint;
adding slashes to the base leaves it as it is. -/
theorem endpointUrl_eq_trimmed_append (b e : String) :
    (∃ n, b.toList = dropTrailingSlashes b.toList ++ List.replicate n '/') ∧
      (dropTrailingSlashes b.toList).getLast? ≠ some '/' ∧
      endpointUrl b e = String.ofList (dropTrailingSlashes b.toList) ++ e ∧
      ∀ m, endpointUrl (b ++ String.ofList (List.replicate m '/')) e = endpointUrl b e := by
  refine ⟨eq_dropTrailingSlashes_append _, getLast?_dropTrailingSlashes _, rfl, fun m => ?_⟩
  simp only [endpointUrl, String.toList_append, String.toList_ofList,
    dropTrailingSlashes_append_replicate]

/-- An endpoint that starts with exactly one slash meets a non-empty trimmed base at exactly one
slash: the base's last character is kept and is no slash, and no slash follows the endpoint's
first. -/
theorem endpointUrl_one_slash_at_join {b e : String} {rest : List Char}
    (hb : dropTrailingSlashes b.toList ≠ []) (he : e.toList = '/' :: rest)
    (hrest : rest.head? ≠ some '/') :
    ∃ pre c, (endpointUrl b e).toList = pre ++ c :: '/' :: rest ∧ c ≠ '/' ∧
      pre ++ [c] = dropTrailingSlashes b.toList ∧ rest.head? ≠ some '/' := by
  rcases List.eq_nil_or_concat (dropTrailingSlashes b.toList) with hnil | ⟨pre, c, hkept⟩
  · exact absurd hnil hb
  rw [List.concat_eq_append] at hkept
  -- the kept part ends in its last character, which is no slash
  have hc : c ≠ '/' := by
    intro hslash
    apply getLast?_dropTrailingSlashes b.toList
    rw [hkept, List.getLast?_concat, hslash]
  refine ⟨pre, c, ?_, hc, hkept.symm, hrest⟩
  rw [endpointUrl, String.toList_append, String.toList_ofList, hkept, he]
  simp

end AccessRequest
