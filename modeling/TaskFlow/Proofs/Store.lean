import Mathlib.Data.List.Nodup
import TaskFlow.Store

namespace TaskFlow.Store

variable {α : Type} {s : Store α} {id key : String} {a : α} {f g : α → α}

@[simp] theorem get?_nil : get? ([] : Store α) key = none := rfl

theorem get?_cons (e : String × α) (s : Store α) :
    get? (e :: s) key = if e.1 = key then some e.2 else get? s key := by
  by_cases h : e.1 = key <;> simp [get?, h]

@[simp] theorem get?_erase : (s.erase id).get? key = if key = id then none else s.get? key := by
  induction s with
  | nil => simp [erase]
  | cons e s ih =>
    by_cases he : e.1 = id
    · have : erase (e :: s) id = erase s id := by simp [erase, he]
      rw [this, ih, get?_cons]
      grind
    · have : erase (e :: s) id = e :: erase s id := by simp [erase, he]
      rw [this, get?_cons, ih, get?_cons]
      grind

@[simp] theorem get?_insert :
    (s.insert id a).get? key = if key = id then some a else s.get? key := by
  rw [insert, get?_cons, get?_erase]
  grind

@[simp] theorem get?_modify :
    (s.modify id f).get? key = if key = id then (s.get? key).map f else s.get? key := by
  induction s with
  | nil => simp [modify]
  | cons e s ih =>
    have : modify (e :: s) id f = (if e.1 = id then (e.1, f e.2) else e) :: modify s id f := by
      simp [modify]
    rw [this, get?_cons, ih, get?_cons]
    grind

theorem has_iff : s.has id = true ↔ ∃ a, s.get? id = some a := by
  simp [has, Option.isSome_iff_exists]

@[simp] theorem has_erase : (s.erase id).has key = (key != id && s.has key) := by
  by_cases h : key = id <;> simp [has, h]

@[simp] theorem has_insert : (s.insert id a).has key = (key == id || s.has key) := by
  by_cases h : key = id <;> simp [has, h]

@[simp] theorem has_modify : (s.modify id f).has key = s.has key := by
  by_cases h : key = id <;> simp [has, h]

theorem mem_ids : id ∈ s.ids ↔ ∃ a, s.get? id = some a := by
  induction s with
  | nil => simp [ids]
  | cons e s ih =>
    have : id ∈ ids (e :: s) ↔ id = e.1 ∨ id ∈ ids s := by simp [ids]
    rw [this, ih, get?_cons]
    by_cases h : e.1 = id
    · simp [h]
    · simp [h, Ne.symm h]

theorem mem_of_get? (h : s.get? id = some a) : (id, a) ∈ s := by
  induction s with
  | nil => simp at h
  | cons e s ih =>
    rw [get?_cons] at h
    split at h
    · next he =>
      cases h
      exact List.mem_cons.mpr (.inl (by rw [← he]))
    · exact List.mem_cons_of_mem _ (ih h)

@[simp] theorem ids_erase : (s.erase id).ids = s.ids.filter (· ≠ id) := by
  simp only [ids, erase, List.filter_map]
  congr 1
  exact List.filter_congr fun e _ => by simp [beq_eq_decide]

@[simp] theorem ids_insert : (s.insert id a).ids = id :: s.ids.filter (· ≠ id) := by
  rw [← ids_erase]
  rfl

@[simp] theorem ids_modify : (s.modify id f).ids = s.ids := by
  simp only [ids, modify, List.map_map]
  refine List.map_congr_left fun e _ => ?_
  by_cases h : e.1 = id <;> simp [h]

theorem nodup_erase (h : s.ids.Nodup) : (s.erase id).ids.Nodup := by
  rw [ids_erase]
  exact h.filter _

theorem nodup_insert (h : s.ids.Nodup) : (s.insert id a).ids.Nodup := by
  rw [ids_insert]
  exact List.nodup_cons.mpr ⟨by simp, h.filter _⟩

theorem not_mem_ids (h : s.get? id = none) : id ∉ s.ids := by
  rw [mem_ids, h]
  simp

theorem mem_ids_of_mem (h : (id, a) ∈ s) : id ∈ s.ids := List.mem_map.mpr ⟨_, h, rfl⟩

theorem erase_of_absent (h : s.get? id = none) : s.erase id = s := by
  refine List.filter_eq_self.mpr fun e he => ?_
  have : e.1 ≠ id := fun same => not_mem_ids h (same ▸ mem_ids_of_mem he)
  simpa using this

theorem modify_of_absent (h : s.get? id = none) : s.modify id f = s := by
  refine (List.map_congr_left fun e he => ?_).trans (List.map_id s)
  have : e.1 ≠ id := fun same => not_mem_ids h (same ▸ mem_ids_of_mem he)
  simp [this]

theorem get?_of_mem (nodup : s.ids.Nodup) (h : (id, a) ∈ s) : s.get? id = some a := by
  induction s with
  | nil => cases h
  | cons e s ih =>
    obtain ⟨fresh, nodup⟩ := List.nodup_cons.mp nodup
    rw [get?_cons]
    rcases List.mem_cons.mp h with rfl | h
    · exact if_pos rfl
    · have : e.1 ≠ id := by
        rintro rfl
        exact fresh (mem_ids_of_mem h)
      rw [if_neg this, ih nodup h]

theorem get?_perm {s' : Store α} (nodup : s.ids.Nodup) (h : s.Perm s') :
    s.get? id = s'.get? id := by
  have nodup' : s'.ids.Nodup := (h.map _).nodup_iff.mp nodup
  cases found : s.get? id with
  | some a => exact (get?_of_mem nodup' (h.subset (mem_of_get? found))).symm
  | none =>
    refine (Option.eq_none_iff_forall_ne_some.mpr fun a found' => ?_).symm
    rw [get?_of_mem nodup (h.symm.subset (mem_of_get? found'))] at found
    cases found

theorem erase_cons_self {e : String × α} (nodup : (ids (e :: s)).Nodup) :
    erase (e :: s) e.1 = s := by
  obtain ⟨fresh, -⟩ := List.nodup_cons.mp nodup
  have absent : get? s e.1 = none :=
    Option.eq_none_iff_forall_ne_some.mpr fun b hb => fresh (mem_ids.mpr ⟨b, hb⟩)
  have : erase (e :: s) e.1 = erase s e.1 := by simp [erase]
  rw [this, erase_of_absent absent]

theorem perm_cons_erase (nodup : s.ids.Nodup) (h : s.get? id = some a) :
    s.Perm ((id, a) :: s.erase id) := by
  induction s with
  | nil => cases h
  | cons e s ih =>
    rw [get?_cons] at h
    by_cases he : e.1 = id
    · obtain rfl : e = (id, a) := Prod.ext he (Option.some.inj (by rwa [if_pos he] at h))
      rw [erase_cons_self nodup]
    · have : erase (e :: s) id = e :: erase s id := by simp [erase, he]
      rw [this]
      rw [if_neg he] at h
      exact ((ih (List.nodup_cons.mp nodup).2 h).cons e).trans (.swap ..)

theorem modify_perm (nodup : s.ids.Nodup) (h : s.get? id = some a) :
    (s.modify id f).Perm (s.erase id ++ [(id, f a)]) := by
  have changed : modify ((id, a) :: s.erase id) id f = (id, f a) :: s.erase id := by
    have rest : (s.erase id).modify id f = s.erase id := modify_of_absent (by simp)
    simpa [modify] using rest
  have front : (s.modify id f).Perm ((id, f a) :: s.erase id) :=
    changed ▸ (perm_cons_erase nodup h).map _
  exact front.trans (List.perm_append_singleton ..).symm

theorem mergeSort_eq_of_perm {β : Type} (le : β → β → Bool) {xs ys : List β}
    (trans : ∀ a b c, le a b → le b c → le a c) (total : ∀ a b, le a b || le b a)
    (untied : ∀ a ∈ xs, ∀ b ∈ xs, le a b → le b a → a = b) (h : xs.Perm ys) :
    xs.mergeSort le = ys.mergeSort le := by
  have sorted := List.mergeSort_perm xs le
  refine List.Perm.eq_of_pairwise (fun a b ha hb => ?_) (List.pairwise_mergeSort trans total xs)
    (List.pairwise_mergeSort trans total ys)
    (sorted.trans (h.trans (List.mergeSort_perm ys le).symm))
  exact untied a (sorted.subset ha) b (h.symm.subset ((List.mergeSort_perm ys le).subset hb))

theorem modify_modify : (s.modify id f).modify id g = s.modify id (g ∘ f) := by
  rw [modify, modify, List.map_map]
  refine List.map_congr_left fun e _ => ?_
  by_cases h : e.1 = id <;> simp [h]

/-- Two changes can be made in either order if they are about different entries, or do not stand in
each other's way. -/
theorem modify_comm (h : key = id → ∀ a, f (g a) = g (f a)) :
    (s.modify id g).modify key f = (s.modify key f).modify id g := by
  rw [modify, modify, modify, modify, List.map_map, List.map_map]
  refine List.map_congr_left fun e _ => ?_
  by_cases hi : e.1 = id <;> by_cases hk : e.1 = key
  · simp [hi, hk ▸ hi, h (hk.symm.trans hi)]
  · simp [hi, hi ▸ hk]
  · simp [hk, hk ▸ hi]
  · simp [hi, hk]

theorem erase_modify : (s.modify id f).erase key = (s.erase key).modify id f := by
  rw [erase, modify, List.filter_map]
  refine congrArg _ (List.filter_congr fun e _ => ?_)
  by_cases h : e.1 = id <;> simp [h]

theorem insert_modify (h : key ≠ id) :
    (s.modify id f).insert key a = (s.insert key a).modify id f := by
  rw [insert, erase_modify, insert]
  simp [modify, h]

end TaskFlow.Store
