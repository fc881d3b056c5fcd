import TaskFlow.Proofs.Json.Fits

namespace TaskFlow.Json

variable {k name : String} {v : Json} {fs gs : List (String × Json)} {f : String × Json}

theorem InOrder.nodup (h : InOrder fs) : (fs.map (·.1)).Nodup :=
  List.pairwise_map.mpr (h.imp ne_of_lt)

theorem InOrder.mem_iff (h : InOrder fs) : f ∈ fs ↔ lookup f.1 fs = some f.2 := by
  refine ⟨lookup_of_mem h.nodup, fun found => ?_⟩
  obtain ⟨g, hg, same⟩ := Option.map_eq_some_iff.mp found
  have named := List.find?_some hg
  obtain rfl : g = f := Prod.ext (beq_iff_eq.mp named) same
  exact List.mem_of_find?_eq_some hg

theorem InOrder.ext (hf : InOrder fs) (hg : InOrder gs)
    (h : ∀ name, lookup name fs = lookup name gs) : fs = gs := by
  have same (f : String × Json) : f ∈ fs ↔ f ∈ gs := by rw [hf.mem_iff, hg.mem_iff, h]
  have perm : fs.Perm gs :=
    (List.perm_ext_iff_of_nodup (hf.imp fun lt => ?_) (hg.imp fun lt => ?_)).mpr same
  · exact perm.eq_of_pairwise (fun f g _ _ lt gt => absurd gt (lt_asymm lt)) hf hg
  all_goals
    rintro rfl
    exact lt_irrefl _ lt

theorem insertField_of_first (h : ∀ f ∈ fs, k < f.1) : insertField k v fs = (k, v) :: fs := by
  cases fs with
  | nil => rfl
  | cons f fs =>
    obtain ⟨l, w⟩ := f
    exact if_pos (h _ (List.mem_cons_self ..))

section Filter

variable {p : String → Bool}

theorem lookup_filter (h : p name = true) :
    lookup name (fs.filter fun f => p f.1) = lookup name fs := by
  induction fs with
  | nil => rfl
  | cons f fs ih =>
    by_cases hf : p f.1 = true
    · rw [List.filter_cons, if_pos hf, lookup_cons, lookup_cons, ih]
    · have other : f.1 ≠ name := by
        rintro rfl
        exact hf h
      rw [List.filter_cons, if_neg hf, lookup_cons, if_neg other, ih]

theorem filter_insertField_of_neg (h : ¬p k = true) :
    (insertField k v fs).filter (fun f => p f.1) = fs.filter fun f => p f.1 := by
  induction fs with
  | nil => exact List.filter_cons_of_neg h
  | cons f fs ih =>
    obtain ⟨l, w⟩ := f
    rw [insertField]
    split
    · exact List.filter_cons_of_neg h
    · split
      · next same =>
        subst same
        rw [List.filter_cons, if_neg h, List.filter_cons, if_neg h]
      · rw [List.filter_cons, List.filter_cons, ih]

theorem filter_insertField_of_pos (ordered : InOrder fs) (h : p k = true) :
    (insertField k v fs).filter (fun f => p f.1) =
      insertField k v (fs.filter fun f => p f.1) := by
  refine InOrder.ext ((inOrder_insertField ordered).filter _)
    (inOrder_insertField (ordered.filter _)) fun name => ?_
  by_cases hn : p name = true
  · rw [lookup_filter hn, lookup_insertField, lookup_insertField, lookup_filter hn]
  · have absent (gs : List (String × Json)) : lookup name (gs.filter fun f => p f.1) = none := by
      refine lookup_eq_none.mpr fun there => ?_
      obtain ⟨g, hg, rfl⟩ := List.mem_map.mp there
      exact hn (List.mem_filter.mp hg).2
    have other : k ≠ name := by
      rintro rfl
      exact hn h
    rw [absent, lookup_insertField, if_neg other, absent]

end Filter

theorem inOrder_sortedFields (fs : List (String × Json)) : InOrder (sortedFields fs) := by
  induction fs with
  | nil => exact .nil
  | cons f fs ih =>
    rw [sortedFields]
    split
    · exact ih
    · exact inOrder_insertField ih

theorem mem_sortedFields (h : f ∈ sortedFields fs) : ∃ v, (f.1, v) ∈ fs ∧ f.2 = v.sorted := by
  induction fs with
  | nil => cases h
  | cons g fs ih =>
    have later (h : f ∈ sortedFields fs) : ∃ v, (f.1, v) ∈ g :: fs ∧ f.2 = v.sorted := by
      obtain ⟨v, hv, same⟩ := ih h
      exact ⟨v, List.mem_cons_of_mem _ hv, same⟩
    rw [sortedFields] at h
    split at h
    · exact later h
    · rcases mem_insertField h with rfl | h
      · exact ⟨g.2, List.mem_cons_self .., rfl⟩
      · exact later h

theorem lookup_sortedFields :
    lookup name (sortedFields fs) = (lookup name fs.reverse).map sorted := by
  induction fs generalizing name with
  | nil => rfl
  | cons f fs ih =>
    have last : lookup name (sortedFields (f :: fs)) =
        (lookup name (sortedFields fs)).or (if f.1 = name then some f.2.sorted else none) := by
      rw [sortedFields]
      split
      · next known =>
        split
        · next same =>
          subst same
          rw [Option.or_of_isSome known]
        · rw [Option.or_none]
      · next unknown =>
        rw [lookup_insertField]
        split
        · next same =>
          subst same
          rw [Option.not_isSome_iff_eq_none.mp unknown, Option.none_or]
        · rw [Option.or_none]
    rw [last, ih, List.reverse_cons, lookup_append, lookup_cons, lookup_nil]
    cases lookup name fs.reverse <;> split <;> rfl

theorem filter_sortedFields (p : String → Bool) :
    (sortedFields fs).filter (fun f => p f.1) = sortedFields (fs.filter fun f => p f.1) := by
  induction fs with
  | nil => rfl
  | cons f fs ih =>
    rw [sortedFields]
    by_cases hf : p f.1 = true
    · rw [List.filter_cons, if_pos hf, sortedFields, ← ih, lookup_filter hf]
      split
      · rfl
      · exact filter_insertField_of_pos (inOrder_sortedFields fs) hf
    · rw [List.filter_cons, if_neg hf, ← ih]
      split
      · rfl
      · exact filter_insertField_of_neg hf

theorem lookup_map_sorted :
    lookup name (fs.map fun f => (f.1, f.2.sorted)) = (lookup name fs).map sorted := by
  induction fs with
  | nil => rfl
  | cons f fs ih =>
    rw [List.map_cons, lookup_cons, lookup_cons, ih]
    split <;> rfl

theorem lookup_ofFields (h : ofFields gs = .obj fs) : lookup name fs = lookup name gs.reverse := by
  cases h
  induction gs using List.reverseRecOn with
  | nil => rfl
  | append_singleton gs g ih =>
    rw [List.foldl_append, List.reverse_append, List.reverse_singleton, List.singleton_append,
      lookup_cons, ← ih]
    exact lookup_insertField

theorem ofFields_map_sorted (fs : List (String × Json)) :
    ofFields (fs.map fun f => (f.1, f.2.sorted)) = .obj (sortedFields fs) := by
  obtain ⟨gs, made, ordered, -⟩ := ofFields_eq (fs.map fun f => (f.1, f.2.sorted))
  rw [made]
  refine congrArg _ (ordered.ext (inOrder_sortedFields fs) fun name => ?_)
  rw [lookup_ofFields made, ← List.map_reverse, lookup_map_sorted, lookup_sortedFields]

theorem sortedFields_of_inOrder (ordered : InOrder fs) (h : ∀ f ∈ fs, f.2.sorted = f.2) :
    sortedFields fs = fs := by
  induction fs with
  | nil => rfl
  | cons f fs ih =>
    obtain ⟨first, rest⟩ := List.pairwise_cons.mp ordered
    obtain ⟨same, others⟩ := List.forall_mem_cons.mp h
    have fresh : lookup f.1 fs = none := lookup_eq_none.mpr fun there => by
      obtain ⟨g, hg, again⟩ := List.mem_map.mp there
      exact absurd (first g hg) (again ▸ lt_irrefl _)
    rw [sortedFields, ih rest others, fresh, same]
    exact insertField_of_first first

theorem sortedItems_eq_map (xs : List Json) : sortedItems xs = xs.map sorted := by
  induction xs with
  | nil => rfl
  | cons x xs ih => rw [sortedItems, ih, List.map_cons]

mutual

theorem read_ofJson_eq_sorted : (j : Json) → (Doc.ofJson j).read = .ok j.sorted
  | .null | .bool _ | .num _ | .str _ => rfl
  | .arr xs => by
    rw [Doc.ofJson, Doc.read, readItems_ofItems_eq_sorted xs]
    rfl
  | .obj fs => by
    rw [Doc.ofJson, Doc.read, readFields_ofFields_eq_sorted fs]
    exact congrArg Except.ok (ofFields_map_sorted fs)

theorem readItems_ofItems_eq_sorted :
    (xs : List Json) → Doc.readItems (Doc.ofItems xs) = .ok (sortedItems xs)
  | [] => rfl
  | x :: xs => by
    rw [Doc.ofItems, Doc.readItems, read_ofJson_eq_sorted x, readItems_ofItems_eq_sorted xs]
    rfl

theorem readFields_ofFields_eq_sorted : (fs : List (String × Json)) →
    Doc.readFields (Doc.ofFields fs) = .ok (fs.map fun f => (f.1, f.2.sorted))
  | [] => rfl
  | (k, v) :: fs => by
    rw [Doc.ofFields, Doc.readFields, read_ofJson_eq_sorted v, readFields_ofFields_eq_sorted fs]
    rfl

end

mutual

theorem sorted_sorted : (j : Json) → j.sorted.sorted = j.sorted
  | .null | .bool _ | .num _ | .str _ => rfl
  | .arr xs => congrArg Json.arr (sortedItems_sortedItems xs)
  | .obj fs => congrArg Json.obj
    (sortedFields_of_inOrder (inOrder_sortedFields fs) (sorted_of_mem_sortedFields fs))

theorem sortedItems_sortedItems : (xs : List Json) →
    sortedItems (sortedItems xs) = sortedItems xs
  | [] => rfl
  | x :: xs => by rw [sortedItems, sortedItems, sorted_sorted x, sortedItems_sortedItems xs]

theorem sorted_of_mem_sortedFields : (fs : List (String × Json)) →
    ∀ f ∈ sortedFields fs, f.2.sorted = f.2
  | [] => nofun
  | (k, v) :: fs => by
    intro f hf
    rw [sortedFields] at hf
    split at hf
    · exact sorted_of_mem_sortedFields fs f hf
    · rcases mem_insertField hf with rfl | hf
      · exact sorted_sorted v
      · exact sorted_of_mem_sortedFields fs f hf

end

theorem sorted_of_tidy {n : Nat} {j : Json} (h : j.Tidy n) : j.sorted = j := by
  induction h with
  | null | bool | num | str => rfl
  | @arr m xs _ ih =>
    have same : xs.map sorted = xs := (List.map_congr_left ih).trans (List.map_id xs)
    rw [sorted, sortedItems_eq_map, same]
  | obj ordered _ ih => exact congrArg Json.obj (sortedFields_of_inOrder ordered ih)

theorem Doc.read_ofJson {n : Nat} {j : Json} (h : j.Tidy n) : (ofJson j).read = .ok j := by
  rw [read_ofJson_eq_sorted, sorted_of_tidy h]

theorem Doc.check_ofJson (j : Json) : (ofJson j).check = .ok () :=
  bind_eq_ok.mpr ⟨j.sorted, read_ofJson_eq_sorted j, rfl⟩

end TaskFlow.Json
