import TaskFlow.Proofs.Json.Fields
import TaskFlow.Rows.FuzzyJoin

namespace TaskFlow.Rows

open Json (lookup)

def names (fs : List (String × Json)) : List String := fs.map (·.1)

/-- The name that a field of the right row gets if its own is taken. -/
def prefixed (name : String) : String := "right_" ++ name

/-- No prefixed name of a field that both rows have is itself the name of a field. -/
def Unambiguous (left right : List (String × Json)) : Prop :=
  ∀ name ∈ names left, name ∈ names right →
    prefixed name ∉ names left ∧ prefixed name ∉ names right

/-- Every field of two rows is in a third one: those of the left row under their names, those of the
right one under their names or prefixed. -/
def Keeps (left right : List (String × Json)) (row : Row) : Prop :=
  (∀ f ∈ left, row.field? f.1 = some f.2) ∧
    ∀ f ∈ right, row.field? f.1 = some f.2 ∨ row.field? (prefixed f.1) = some f.2

/-- The value of a field of the right row under its prefixed name. -/
def renamed (left right : List (String × Json)) (name : String) : Option Json :=
  (right.find? fun f => prefixed f.1 == name && (lookup f.1 left).isSome).map (·.2)

/-- What two rows say of a name: the left one first, then the right one, then a prefixed name. -/
def either (left right : List (String × Json)) (name : String) : Option Json :=
  ((lookup name left).or (lookup name right)).or (renamed left right name)

variable {left right fs : List (String × Json)} {f : String × Json} {name key : String}

theorem prefixed_inj {a b : String} : prefixed a = prefixed b ↔ a = b := by
  rw [prefixed, prefixed, ← String.toList_inj, ← String.toList_inj, String.toList_append,
    String.toList_append, List.append_cancel_left_eq]

theorem prefixed_ne_similarity : prefixed name ≠ "similarity" := by
  intro h
  have first := congrArg (fun s : String => s.toList.head?) h
  simp [prefixed, String.toList_append] at first

theorem mem_names (h : f ∈ fs) : f.1 ∈ names fs := List.mem_map_of_mem h

theorem renamed_eq_none
    (h : ∀ f ∈ right, f.1 ∈ names left → prefixed f.1 ≠ name) : renamed left right name = none := by
  rw [renamed, Option.map_eq_none_iff, List.find?_eq_none]
  intro f hf taken
  obtain ⟨same, found⟩ := Bool.and_eq_true_iff.mp taken
  exact h f hf (Json.lookup_isSome.mp found) (beq_iff_eq.mp same)

theorem renamed_append : renamed left (right ++ [f]) name =
    (renamed left right name).or
      (if prefixed f.1 = name ∧ f.1 ∈ names left then some f.2 else none) := by
  have taken : (prefixed f.1 == name && (lookup f.1 left).isSome) = true ↔
      prefixed f.1 = name ∧ f.1 ∈ names left := by
    rw [Bool.and_eq_true_iff, beq_iff_eq, Json.lookup_isSome]
    rfl
  rw [renamed, renamed, List.find?_append, Option.map_or, List.find?_singleton]
  simp only [taken]
  split <;> rfl

theorem renamed_prefixed (taken : name ∈ names left) :
    renamed left right (prefixed name) = lookup name right := by
  have found : (lookup name left).isSome = true := Json.lookup_isSome.mpr taken
  have same : (fun f : String × Json => prefixed f.1 == prefixed name &&
      (lookup f.1 left).isSome) = fun f => f.1 == name := by
    funext f
    by_cases h : f.1 = name
    · rw [h, found, beq_self_eq_true, beq_self_eq_true, Bool.and_self]
    · rw [beq_eq_false_iff_ne.mpr (mt prefixed_inj.mp h), beq_eq_false_iff_ne.mpr h,
        Bool.false_and]
  rw [renamed, same]
  rfl

theorem mem_names_append {n : String} : n ∈ names (fs ++ [f]) ↔ n ∈ names fs ∨ n = f.1 := by
  rw [names, List.map_append, List.mem_append, List.map_singleton, List.mem_singleton]
  rfl

theorem Unambiguous.of_append (h : Unambiguous left (fs ++ [f])) : Unambiguous left fs := by
  intro name hl hr
  exact (h name hl (mem_names_append.mpr (.inl hr))).imp_right fun free hn =>
    free (mem_names_append.mpr (.inl hn))

theorem either_append_of_taken (clear : Unambiguous left (fs ++ [f])) (fresh : f.1 ∉ names fs)
    (taken : f.1 ∈ names left) : either left (fs ++ [f]) name =
      if prefixed f.1 = name then some f.2 else either left fs name := by
  obtain ⟨freeLeft, freeRight⟩ := clear _ taken (mem_names_append.mpr (.inr rfl))
  rw [either, either, renamed_append, Json.lookup_append, Json.lookup_cons, Json.lookup_nil]
  by_cases hn : prefixed f.1 = name
  · subst hn
    have other : f.1 ≠ prefixed f.1 := fun same => freeLeft (same ▸ taken)
    have absent : lookup (prefixed f.1) fs = none :=
      Json.lookup_eq_none.mpr fun hm => freeRight (mem_names_append.mpr (.inl hm))
    have unnamed : renamed left fs (prefixed f.1) = none := renamed_eq_none fun g hg _ same =>
      fresh (prefixed_inj.mp same ▸ mem_names hg)
    simp [Json.lookup_eq_none.mpr freeLeft, absent, unnamed, other, taken]
  · by_cases same : f.1 = name
    · obtain ⟨v, hv⟩ := Option.isSome_iff_exists.mp (Json.lookup_isSome.mpr taken)
      rw [same] at hv
      simp [hn, hv]
    · simp [hn, same]

theorem either_append_of_free (fresh : f.1 ∉ names fs) (free : f.1 ∉ names left) :
    either left (fs ++ [f]) name = if f.1 = name then some f.2 else either left fs name := by
  rw [either, either, renamed_append, Json.lookup_append, Json.lookup_cons, Json.lookup_nil]
  by_cases same : f.1 = name
  · subst same
    simp [Json.lookup_eq_none.mpr free, Json.lookup_eq_none.mpr fresh]
  · simp [same, free]

theorem lookup_foldl_addRight (nodup : (names fs).Nodup) (clear : Unambiguous left fs) :
    lookup name (fs.foldl addRight left) = either left fs name := by
  induction fs using List.reverseRecOn generalizing name with
  | nil => simp [either, renamed]
  | append_singleton fs f ih =>
    rw [names, List.map_append, List.nodup_append] at nodup
    obtain ⟨nodup, -, apart⟩ := nodup
    have fresh : f.1 ∉ names fs := fun hf => apart _ hf f.1 (by simp) rfl
    have before {name : String} : lookup name (fs.foldl addRight left) = either left fs name :=
      ih nodup clear.of_append
    have unnamed : renamed left fs f.1 = none := renamed_eq_none fun g hg hl same =>
      (clear _ hl (mem_names_append.mpr (.inl (mem_names hg)))).2
        (mem_names_append.mpr (.inr same))
    -- Whether the name of the field is taken depends on the left row only.
    have own : lookup f.1 (fs.foldl addRight left) = lookup f.1 left := by
      rw [before, either, unnamed, Json.lookup_eq_none.mpr fresh, Option.or_none, Option.or_none]
    rw [List.foldl_append, List.foldl_cons, List.foldl_nil, addRight, own]
    by_cases taken : f.1 ∈ names left
    · rw [if_pos (Json.lookup_isSome.mpr taken), Json.lookup_insertField, before,
        either_append_of_taken clear fresh taken]
      rfl
    · rw [if_neg (mt Json.lookup_isSome.mp taken), Json.lookup_insertField, before,
        either_append_of_free fresh taken]

theorem keeps_foldl_addRight (leftNames : (names left).Nodup) (nodup : (names fs).Nodup)
    (clear : Unambiguous left fs) : Keeps left fs (.obj (fs.foldl addRight left)) := by
  have found (name : String) :
      Json.field? name (.obj (fs.foldl addRight left)) = either left fs name :=
    lookup_foldl_addRight nodup clear
  refine ⟨fun f hf => ?_, fun f hf => ?_⟩
  · rw [found, either, Json.lookup_of_mem leftNames hf]
    rfl
  · have own := Json.lookup_of_mem nodup hf
    rw [found, found, either, either]
    by_cases taken : f.1 ∈ names left
    · right
      obtain ⟨freeLeft, freeRight⟩ := clear _ taken (mem_names hf)
      rw [Json.lookup_eq_none.mpr freeLeft, Json.lookup_eq_none.mpr freeRight,
        renamed_prefixed taken, own]
      rfl
    · left
      rw [Json.lookup_eq_none.mpr taken, own]
      rfl

theorem Keeps.insertField {value : Json} (h : Keeps left right (.obj fs))
    (inLeft : key ∉ names left) (inRight : key ∉ names right)
    (unprefixed : ∀ name, prefixed name ≠ key) :
    Keeps left right (.obj (Json.insertField key value fs)) := by
  have apart {name : String} (hn : key ≠ name) :
      Json.field? name (.obj (Json.insertField key value fs)) = Json.field? name (.obj fs) :=
    Json.lookup_insertField.trans (if_neg hn)
  refine ⟨fun f hf => ?_, fun f hf => ?_⟩
  · rw [apart fun same => inLeft (same ▸ mem_names hf)]
    exact h.1 f hf
  · rw [apart fun same => inRight (same ▸ mem_names hf), apart (unprefixed f.1).symm]
    exact h.2 f hf

/-- As long as no prefixed name is taken, a merged row has all fields of the left row and all of the
right one but the key. -/
theorem merge_keeps_fields (left right : List (String × Json)) (key : String) (score : Double)
    (leftNames : (names left).Nodup) (rightNames : (names right).Nodup) :
    (Unambiguous left (right.filter fun f => f.1 ≠ key) →
      Keeps left (right.filter fun f => f.1 ≠ key) (merge key (.obj left) (.obj right))) ∧
    (Unambiguous left right → "similarity" ∉ names left → "similarity" ∉ names right →
      Keeps left right (mergeScored (.obj left) (.obj right) score) ∧
        (mergeScored (.obj left) (.obj right) score).field? "similarity" =
          some (Json.ofDouble (roundScore score))) := by
  have others : (names (right.filter fun f => f.1 ≠ key)).Nodup :=
    rightNames.sublist (List.filter_sublist.map _)
  refine ⟨keeps_foldl_addRight leftNames others, fun clear inLeft inRight => ⟨?_, ?_⟩⟩
  · exact (keeps_foldl_addRight leftNames rightNames clear).insertField inLeft inRight
      fun _ => prefixed_ne_similarity
  · exact Json.lookup_insertField.trans (if_pos rfl)

def paid : List (String × Json) := [("id", .str "u1"), ("x", .ofNat 2)]

def due : List (String × Json) := [("id", .str "u1"), ("x", .ofNat 3), ("y", .ofNat 4)]

theorem paid_due_kept :
    Keeps paid (due.filter fun f => f.1 ≠ "id") (merge "id" (.obj paid) (.obj due)) ∧
      Keeps paid due (mergeScored (.obj paid) (.obj due) (.ofNat 1)) := by
  have clear : Unambiguous paid due := by
    unfold Unambiguous
    decide
  have cleared : Unambiguous paid (due.filter fun f => f.1 ≠ "id") := by
    unfold Unambiguous
    decide
  obtain ⟨merged, scored⟩ := merge_keeps_fields paid due "id" (.ofNat 1) (by decide) (by decide)
  exact ⟨merged cleared, (scored clear (by decide) (by decide)).1⟩

/-- The row merged from two that have only their field `x` in common. -/
def overwritten : Row :=
  merge "id" (.obj [("x", .ofNat 2)]) (.obj [("right_x", .ofNat 9), ("x", .ofNat 3)])

/-- A prefixed name that is taken costs a field: of the two fields of the right row only one is
left. -/
theorem merge_loses_right_field :
    ¬Keeps [("x", .ofNat 2)] [("right_x", .ofNat 9), ("x", .ofNat 3)] overwritten := by
  intro kept
  have row : overwritten = .obj [("right_x", .ofNat 3), ("x", .ofNat 2)] := rfl
  have own : overwritten.field? "right_x" = some (.num (.int 3)) := row ▸ rfl
  have second : overwritten.field? (prefixed "right_x") = none := row ▸ rfl
  rcases kept.2 ("right_x", .ofNat 9) (List.mem_cons_self ..) with h | h
  · rw [own] at h
    injection h with h
    injection h with h
    injection h with h
    exact absurd h (by decide)
  · rw [second] at h
    cases h

end TaskFlow.Rows
