import AccessRequest.Json.Value

/-!
An object's members built from the pairs written keep, for every key, the value of the key's last
pair. The pairs are taken latest first and sorted by key; the sort is stable, so the pairs of one
key keep their order and the latest leads its run, and of each run only its first pair is kept.
-/

namespace AccessRequest.Json.Members

@[simp] theorem ofPairs_nil : ofPairs [] = [] := by
  simp [ofPairs, ofLatestFirst, firstOfRuns]

/-- A key's value is that of its first pair. -/
theorem get?_eq_find? {k : String} {p : String × Value → Bool} (hp : ∀ q, p q = true ↔ q.1 = k)
    (l : List (String × Value)) : get? k l = (l.find? p).map Prod.snd := by
  induction l with
  | nil => rfl
  | cons a rest ih =>
      by_cases hk : k = a.1
      · have hpa : p a = true := (hp a).mpr hk.symm
        simp [get?, hk, List.find?_cons_of_pos hpa]
      · have hpa : ¬ p a = true := fun h => hk ((hp a).mp h).symm
        simp [get?, hk, List.find?_cons_of_neg hpa, ih]

/-- Keeping the first pair of each run of one key leaves every key's value. -/
theorem get?_firstOfRuns (k : String) (l : List (String × Value)) :
    get? k (firstOfRuns l) = get? k l := by
  fun_induction firstOfRuns l with
  | case1 a b rest hab ih =>
      -- `b` is shadowed by `a`, whose key it shares
      rw [ih]
      by_cases hk : k = a.1
      · simp [get?, hk]
      · have hkb : ¬ k = b.1 := hab ▸ hk
        simp [get?, hk, hkb]
  | case2 a b rest hab ih =>
      simp only [get?]
      rw [ih]
      rfl
  | case3 l => rfl

/-- A stable sort in which pairs of one key are never out of order keeps, for every key, the
order of its pairs, so its first value. -/
theorem get?_mergeSort {le : String × Value → String × Value → Bool}
    (htrans : ∀ a b c, le a b = true → le b c = true → le a c = true)
    (htotal : ∀ a b, (le a b || le b a) = true) (hsame : ∀ a b, a.1 = b.1 → le a b = true)
    (k : String) (l : List (String × Value)) : get? k (l.mergeSort le) = get? k l := by
  let p : String × Value → Bool := fun q => decide (q.1 = k)
  have hp : ∀ q, p q = true ↔ q.1 = k := fun q => decide_eq_true_iff
  -- the pairs of key `k` come out of the sort as they went in
  have hpairwise : (l.filter p).Pairwise fun a b => le a b = true := by
    apply List.pairwise_of_forall_mem_list
    intro a ha b hb
    have hak := (hp a).mp (List.mem_filter.mp ha).2
    have hbk := (hp b).mp (List.mem_filter.mp hb).2
    exact hsame a b (hak.trans hbk.symm)
  have hsub : List.Sublist (l.filter p) ((l.mergeSort le).filter p) := by
    have h := (List.sublist_mergeSort htrans htotal hpairwise (List.filter_sublist)).filter p
    rwa [List.filter_filter, List.filter_congr (fun a _ => Bool.and_self (p a))] at h
  have hlen : (l.filter p).length = ((l.mergeSort le).filter p).length :=
    (((List.mergeSort_perm l le).filter p).length_eq).symm
  have hfilter := hsub.eq_of_length hlen
  rw [get?_eq_find? hp, get?_eq_find? hp, ← List.head?_filter, ← List.head?_filter, hfilter]

/-- Building members keeps each key's first pair, of pairs listed latest first. -/
theorem get?_ofLatestFirst (k : String) (l : List (String × Value)) :
    get? k (ofLatestFirst l) = get? k l := by
  unfold ofLatestFirst
  rw [get?_firstOfRuns]
  apply get?_mergeSort
  · intro a b c hab hbc
    simp only [decide_eq_true_eq] at *
    exact String.le_trans hab hbc
  · intro a b
    simp only [Bool.or_eq_true, decide_eq_true_eq]
    exact String.le_total a.1 b.1
  · intro a b hab
    simp [hab]

/-- Building members from the pairs written keeps, for every key, its last pair's value. -/
theorem get?_ofPairs (k : String) (pairs : List (String × Value)) :
    get? k (ofPairs pairs) = get? k pairs.reverse :=
  get?_ofLatestFirst k pairs.reverse

/-! ### Keys strictly ascend -/

/-- Keeping the first pair of each run leaves a sublist. -/
theorem firstOfRuns_sublist (l : List (String × Value)) : (firstOfRuns l).Sublist l := by
  fun_induction firstOfRuns l with
  | case1 a b rest _ ih => exact ih.trans ((List.sublist_cons_self b rest).cons_cons a)
  | case2 a b rest _ ih => exact ih.cons_cons a
  | case3 l => exact List.Sublist.refl l

theorem lt_of_le_of_ne_key {a b : String} (hle : a ≤ b) (hne : a ≠ b) : a < b :=
  String.not_le.mp fun hba => hne (String.le_antisymm hle hba)

theorem lt_of_lt_of_le_key {a b c : String} (hab : a < b) (hbc : b ≤ c) : a < c :=
  String.not_le.mp fun hca => String.not_le.mpr hab (String.le_trans hbc hca)

/-- Of a list sorted by key, keeping the first pair of each run leaves keys that strictly
ascend: pairs of one key stand together in it. -/
theorem firstOfRuns_pairwise_lt {l : List (String × Value)}
    (h : l.Pairwise fun a b => a.1 ≤ b.1) : (firstOfRuns l).Pairwise fun a b => a.1 < b.1 := by
  fun_induction firstOfRuns l with
  | case1 a b rest _ ih =>
      obtain ⟨ha, hb⟩ := List.pairwise_cons.mp h
      exact ih (List.pairwise_cons.mpr
        ⟨fun y hy => ha y (List.mem_cons_of_mem b hy), (List.pairwise_cons.mp hb).2⟩)
  | case2 a b rest hab ih =>
      obtain ⟨ha, hrest⟩ := List.pairwise_cons.mp h
      -- `a` is below `b`, and `b` is at most everything after it
      have hlt : a.1 < b.1 := lt_of_le_of_ne_key (ha b List.mem_cons_self) hab
      refine List.pairwise_cons.mpr ⟨fun y hy => ?_, ih hrest⟩
      rcases List.mem_cons.mp ((firstOfRuns_sublist (b :: rest)).subset hy) with rfl | hy
      · exact hlt
      · exact lt_of_lt_of_le_key hlt ((List.pairwise_cons.mp hrest).1 y hy)
  | case3 l hl =>
      match l, hl with
      | [], _ => exact List.Pairwise.nil
      | [a], _ => exact List.pairwise_singleton _ a
      | a :: b :: rest, hl => exact absurd rfl (hl a b rest)

/-- Pairs whose keys strictly ascend form no runs to cut. -/
theorem firstOfRuns_of_pairwise_lt {l : List (String × Value)}
    (h : l.Pairwise fun a b => a.1 < b.1) : firstOfRuns l = l := by
  fun_induction firstOfRuns l with
  | case1 a b rest hab _ =>
      have hlt : a.1 < b.1 := (List.pairwise_cons.mp h).1 b List.mem_cons_self
      exact absurd (hab ▸ hlt) (String.lt_irrefl b.1)
  | case2 a b rest _ ih => rw [ih (List.pairwise_cons.mp h).2]
  | case3 l => rfl

/-- Sorting by key leaves the keys ascending. -/
theorem pairwise_mergeSort_key (l : List (String × Value)) :
    (l.mergeSort fun a b => decide (a.1 ≤ b.1)).Pairwise fun a b => a.1 ≤ b.1 := by
  have h : (l.mergeSort fun a b => decide (a.1 ≤ b.1)).Pairwise
      fun a b => decide (a.1 ≤ b.1) = true := List.pairwise_mergeSort
    (fun a b c hab hbc => by simp only [decide_eq_true_eq] at *; exact String.le_trans hab hbc)
    (fun a b => by simpa only [Bool.or_eq_true, decide_eq_true_eq] using String.le_total a.1 b.1) l
  exact h.imp fun hab => of_decide_eq_true hab

/-- The members built from any pairs have keys that strictly ascend. -/
theorem ofPairs_pairwise_lt (pairs : List (String × Value)) :
    (ofPairs pairs).Pairwise fun a b => a.1 < b.1 :=
  firstOfRuns_pairwise_lt (pairwise_mergeSort_key _)

/-- Every member built from pairs is one of them. -/
theorem mem_of_mem_ofPairs {m : String × Value} {pairs : List (String × Value)}
    (h : m ∈ ofPairs pairs) : m ∈ pairs :=
  List.mem_reverse.mp (List.mem_mergeSort.mp ((firstOfRuns_sublist _).subset h))

/-- Members whose keys strictly ascend are built back from their pairs written in any order. -/
theorem ofPairs_eq_of_perm {pairs ms : List (String × Value)} (hperm : pairs.Perm ms)
    (hms : ms.Pairwise fun a b => a.1 < b.1) : ofPairs pairs = ms := by
  let sorted := pairs.reverse.mergeSort fun a b => decide (a.1 ≤ b.1)
  have hsorted : sorted.Perm ms :=
    (List.mergeSort_perm _ _).trans ((List.reverse_perm _).trans hperm)
  -- the keys are distinct, so sorting them by `≤` sorts them by `<`
  have hdistinct : sorted.Pairwise fun a b => a.1 ≠ b.1 := by
    have hnodup : (ms.map Prod.fst).Nodup :=
      List.pairwise_map.mpr (hms.imp fun hab => String.ne_of_lt hab)
    exact List.pairwise_map.mp ((hsorted.map Prod.fst).nodup_iff.mpr hnodup)
  have hlt : sorted.Pairwise fun a b => a.1 < b.1 :=
    ((pairwise_mergeSort_key _).and hdistinct).imp fun hab => lt_of_le_of_ne_key hab.1 hab.2
  have heq : sorted = ms := hsorted.eq_of_pairwise
    (fun a b _ _ hab hba => absurd hba (String.lt_asymm hab)) hlt hms
  show firstOfRuns sorted = ms
  rw [firstOfRuns_of_pairwise_lt hlt, heq]

end AccessRequest.Json.Members
