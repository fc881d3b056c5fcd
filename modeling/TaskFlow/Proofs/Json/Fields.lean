import Mathlib.Data.List.Induction
import Mathlib.Data.String.Basic
import TaskFlow.Json.Basic

namespace TaskFlow.Json

variable {k name : String} {v : Json} {fs gs : List (String × Json)} {f g : String × Json}

@[simp] theorem lookup_nil : lookup name [] = none := rfl

theorem lookup_cons : lookup name (f :: fs) = if f.1 = name then some f.2 else lookup name fs := by
  by_cases h : f.1 = name <;> simp [lookup, h]

@[simp] theorem lookup_insertField :
    lookup name (insertField k v fs) = if k = name then some v else lookup name fs := by
  induction fs with
  | nil => simp [insertField, lookup_cons]
  | cons f fs ih =>
    obtain ⟨l, w⟩ := f
    rw [insertField]
    split
    · simp [lookup_cons]
    · split
      · next h =>
        subst h
        simp only [lookup_cons]
        split <;> rfl
      · next h =>
        simp only [lookup_cons, ih]
        grind

theorem lookup_isSome : (lookup name fs).isSome = true ↔ name ∈ fs.map (·.1) := by
  induction fs with
  | nil => simp
  | cons f fs ih =>
    rw [lookup_cons, List.map_cons, List.mem_cons, ← ih]
    by_cases h : f.1 = name
    · simp [h]
    · simp [h, Ne.symm h]

theorem lookup_eq_none : lookup name fs = none ↔ name ∉ fs.map (·.1) := by
  rw [← lookup_isSome, Bool.not_eq_true, Option.isSome_eq_false_iff, Option.isNone_iff_eq_none]

theorem lookup_append : lookup name (fs ++ gs) = (lookup name fs).or (lookup name gs) := by
  induction fs with
  | nil => simp
  | cons f fs ih =>
    rw [List.cons_append, lookup_cons, lookup_cons, ih]
    split <;> rfl

theorem lookup_of_mem (nodup : (fs.map (·.1)).Nodup) (h : f ∈ fs) : lookup f.1 fs = some f.2 := by
  induction fs with
  | nil => cases h
  | cons g fs ih =>
    obtain ⟨fresh, nodup⟩ := List.nodup_cons.mp nodup
    rw [lookup_cons]
    rcases List.mem_cons.mp h with rfl | h
    · exact if_pos rfl
    · have : g.1 ≠ f.1 := fun same => fresh (List.mem_map.mpr ⟨f, h, same.symm⟩)
      rw [if_neg this, ih nodup h]

def InOrder (fs : List (String × Json)) : Prop := fs.Pairwise fun f g => f.1 < g.1

theorem mem_insertField (h : g ∈ insertField k v fs) : g = (k, v) ∨ g ∈ fs := by
  induction fs with
  | nil => exact .inl (List.mem_singleton.mp h)
  | cons f fs ih =>
    obtain ⟨l, w⟩ := f
    rw [insertField] at h
    split at h
    · simpa using h
    · split at h
      · grind
      · rcases List.mem_cons.mp h with rfl | h
        · exact .inr (List.mem_cons_self ..)
        · exact (ih h).imp_right (List.mem_cons_of_mem _)

theorem inOrder_insertField (h : InOrder fs) : InOrder (insertField k v fs) := by
  induction fs with
  | nil => exact List.pairwise_singleton ..
  | cons f fs ih =>
    obtain ⟨l, w⟩ := f
    obtain ⟨first, rest⟩ := List.pairwise_cons.mp h
    rw [insertField]
    split
    · next lt =>
      refine List.pairwise_cons.mpr ⟨fun g hg => ?_, h⟩
      rcases List.mem_cons.mp hg with rfl | hg
      · exact lt
      · exact lt_trans lt (first g hg)
    · next ge =>
      split
      · next same => exact List.pairwise_cons.mpr ⟨fun g hg => same ▸ first g hg, rest⟩
      · next ne =>
        refine List.pairwise_cons.mpr ⟨fun g hg => ?_, ih rest⟩
        rcases mem_insertField hg with rfl | hg
        · exact lt_of_le_of_ne (not_lt.mp ge) (Ne.symm ne)
        · exact first g hg

theorem ofFields_eq (gs : List (String × Json)) :
    ∃ fs, ofFields gs = .obj fs ∧ InOrder fs ∧ ∀ f ∈ fs, f ∈ gs := by
  refine ⟨_, rfl, ?_⟩
  induction gs using List.reverseRecOn with
  | nil => exact ⟨.nil, by simp⟩
  | append_singleton gs g ih =>
    obtain ⟨ordered, given⟩ := ih
    rw [List.foldl_append]
    refine ⟨inOrder_insertField ordered, fun f hf => ?_⟩
    rcases mem_insertField hf with rfl | hf
    · simp
    · exact List.mem_append_left _ (given f hf)

theorem insertField_perm (fresh : k ∉ fs.map (·.1)) :
    (insertField k v fs).Perm ((k, v) :: fs) := by
  induction fs with
  | nil => exact .refl _
  | cons f fs ih =>
    obtain ⟨l, w⟩ := f
    obtain ⟨other, fresh⟩ := not_or.mp (mt List.mem_cons.mpr fresh)
    rw [insertField]
    split
    · exact .refl _
    · exact ((ih fresh).cons (l, w)).trans (.swap ..)

theorem ofFields_perm (nodup : (gs.map (·.1)).Nodup) :
    ∃ fs, ofFields gs = .obj fs ∧ fs.Perm gs := by
  refine ⟨_, rfl, ?_⟩
  induction gs using List.reverseRecOn with
  | nil => exact .nil
  | append_singleton gs g ih =>
    rw [List.map_append, List.map_singleton, List.nodup_append] at nodup
    obtain ⟨nodup, -, apart⟩ := nodup
    have before := ih nodup
    rw [List.foldl_append]
    refine (insertField_perm fun there => ?_).trans ((before.cons _).trans ?_)
    · exact apart g.1 ((before.map _).subset there) g.1 (List.mem_singleton_self _) rfl
    · exact (List.perm_append_singleton g gs).symm

end TaskFlow.Json
