import TaskFlow.Proofs.Registry.Records

namespace TaskFlow

namespace Registry

def withSamples (samples : List MemorySample) (t : TaskRecord) : TaskRecord :=
  { t with memory := t.memory ++ samples }

def addSamples (r : Registry) (id : String) (samples : List MemorySample) : Registry :=
  r.update id (withSamples samples)

/-- A call that leaves the samples of a task alone: it neither inserts the task nor notes memory
with it. -/
def Call.Spares (id : String) : Call → Prop
  | .insert info _ => info.id ≠ id
  | .recordMemory key _ => key ≠ id
  | _ => True

variable {r : Registry} {id key : String} {samples more : List MemorySample} {next : Status}
  {now : Instant} {ttl : Int} {change : TaskInfo → TaskInfo} {f : TaskRecord → TaskRecord}
  {c : Call} {calls : List Call} {u : TaskRecord} {info : TaskInfo} {withSlot : Bool}

@[simp] theorem addSamples_nil : r.addSamples id [] = r := by
  have same : withSamples [] = fun t : TaskRecord => t := by
    funext t
    simp [withSamples]
  simp [addSamples, update, same, Store.modify]

theorem addSamples_addSamples :
    (r.addSamples id samples).addSamples id more = r.addSamples id (samples ++ more) := by
  have both : withSamples more ∘ withSamples samples = withSamples (samples ++ more) := by
    funext t
    simp [withSamples]
  rw [addSamples, addSamples, addSamples, update, update, Store.modify_modify, both]
  rfl

@[simp] theorem get?_addSamples : (r.addSamples id samples).get? key = r.get? key := by
  rw [get?_eq, get?_eq, addSamples, update, Store.get?_modify]
  split
  · rw [Option.map_map]
    rfl
  · rfl

@[simp] theorem isRunning_addSamples :
    (r.addSamples id samples).isRunning key = r.isRunning key := by
  rw [isRunning, isRunning, get?_addSamples]

theorem update_addSamples
    (h : key = id → ∀ t, f (withSamples samples t) = withSamples samples (f t)) :
    (r.addSamples id samples).update key f = (r.update key f).addSamples id samples := by
  simp only [addSamples, update, Store.modify_comm h]

theorem dropSlot_addSamples :
    (r.addSamples id samples).dropSlot key = (r.dropSlot key).addSamples id samples := by
  have same : (r.addSamples id samples).slots = r.slots := rfl
  rw [dropSlot, dropSlot, same]
  split <;> rfl

theorem insert_addSamples (h : info.id ≠ id) :
    (r.addSamples id samples).insert info withSlot =
      (r.insert info withSlot).addSamples id samples := by
  cases withSlot with
  | false => simp only [insert, addSamples, update, Bool.false_eq_true, if_false,
      Store.insert_modify h]
  | true =>
    simp only [insert, if_true, dropSlot_addSamples]
    simp only [addSamples, update, Store.insert_modify h]

theorem transition_addSamples : (r.addSamples id samples).transition key next now change =
    ((r.transition key next now change).1.addSamples id samples,
      (r.transition key next now change).2) := by
  have changed : (r.addSamples id samples).update key (moved next now change) =
      (r.update key (moved next now change)).addSamples id samples :=
    update_addSamples fun _ _ => rfl
  unfold moved at changed
  rw [transition, get?_addSamples, transition]
  cases r.get? key with
  | none => rfl
  | some t =>
    dsimp only
    split
    · rw [changed]
      split
      · rw [dropSlot_addSamples]
      · rfl
    · rfl

theorem removeAll_addSamples (ids : List String) : ((r.addSamples id samples).removeAll ids).1 =
    (r.removeAll ids).1.addSamples id samples := by
  induction ids generalizing r with
  | nil => rfl
  | cons key ids ih =>
    have one : ((r.addSamples id samples).remove key).1 =
        (r.remove key).1.addSamples id samples := by
      simp only [remove, addSamples, update, Store.erase_modify]
    simp only [removeAll, one, ih]

theorem expired_addSamples : (r.addSamples id samples).expired now ttl = r.expired now ttl := by
  have infos : (r.addSamples id samples).tasks.values.map (·.info) =
      r.tasks.values.map (·.info) := by
    rw [addSamples, update, Store.values, Store.values, Store.modify, List.map_map, List.map_map,
      List.map_map]
    refine List.map_congr_left fun e _ => ?_
    by_cases h : e.1 = id <;> simp [h, withSamples]
  have of_infos (r : Registry) : r.expired now ttl =
      ((r.tasks.values.map (·.info)).filter (isExpired now ttl)).map (·.id) := by
    rw [expired, List.filter_map, List.map_map]
    rfl
  rw [of_infos, of_infos, infos]

/-- A call that leaves the samples of a task alone does the same with more of them. -/
theorem apply_addSamples (h : c.Spares id) :
    (c.apply (r.addSamples id samples)).1 = (c.apply r).1.addSamples id samples := by
  -- one case a call; a guard of a call never looks at samples
  cases c with
  | insert info withSlot =>
    cases withSlot with
    | false => exact insert_addSamples h
    | true =>
      simp only [Call.apply, acquire?]
      by_cases none : r.free = 0
      · simp [none, addSamples, update]
      · have some : (r.addSamples id samples).free ≠ 0 := none
        rw [if_neg none, if_neg some]
        exact insert_addSamples (r := { r with free := r.free - 1 }) h
  | markRunning key now => exact congrArg Prod.fst transition_addSamples
  | complete key result now => exact congrArg Prod.fst transition_addSamples
  | fail key failure now => exact congrArg Prod.fst transition_addSamples
  | cancel key now =>
    simp only [Call.apply, cancel_fst]
    exact congrArg Prod.fst transition_addSamples
  | setProgress key fraction message =>
    simp only [Call.apply, setProgress, isRunning_addSamples]
    split
    · exact update_addSamples fun _ _ => rfl
    · rfl
  | recordMemory key sample =>
    simp only [Call.apply, recordMemory, isRunning_addSamples]
    split
    · exact update_addSamples fun same => absurd same h
    · rfl
  | releaseSlot key => exact dropSlot_addSamples
  | remove key => simp only [Call.apply, remove, addSamples, update, Store.erase_modify]
  | sweep now ttl =>
    simp only [Call.apply, sweep, expired_addSamples]
    exact removeAll_addSamples _

theorem after_addSamples (h : ∀ c ∈ calls, c.Spares id) :
    (r.addSamples id samples).after calls = (r.after calls).addSamples id samples := by
  induction calls generalizing r with
  | nil => rfl
  | cons c calls ih =>
    simp only [List.forall_mem_cons] at h
    rw [after_cons, after_cons, apply_addSamples h.1, ih h.2]

theorem memory_transition (hu : (r.transition key next now change).1.tasks.get? id = some u) :
    ∃ t, r.tasks.get? id = some t ∧ u.memory = t.memory := by
  by_cases hk : id = key
  · subst hk
    obtain ⟨t, ht, ⟨-, rfl⟩ | ⟨-, rfl⟩⟩ := get?_transition_eq_some hu
    · exact ⟨t, ht, rfl⟩
    · exact ⟨u, ht, rfl⟩
  · exact ⟨u, get?_transition_of_ne hk ▸ hu, rfl⟩

theorem memory_insert (h : info.id ≠ id) (hu : (r.insert info withSlot).tasks.get? id = some u) :
    r.tasks.get? id = some u := by
  rwa [tasks_insert, Store.get?_insert, if_neg (Ne.symm h)] at hu

theorem memory_apply (h : c.Spares id) (hu : (c.apply r).1.tasks.get? id = some u) :
    ∃ t, r.tasks.get? id = some t ∧ u.memory = t.memory := by
  cases c with
  | insert info withSlot =>
    cases withSlot with
    | false => exact ⟨u, memory_insert h hu, rfl⟩
    | true =>
      simp only [Call.apply] at hu
      split at hu
      · next r' acquired =>
        obtain ⟨-, rfl⟩ := acquire?_eq_some.mp acquired
        exact ⟨u, memory_insert (r := { r with free := r.free - 1 }) h hu, rfl⟩
      · exact ⟨u, hu, rfl⟩
  | markRunning key now => exact memory_transition hu
  | complete key result now => exact memory_transition hu
  | fail key failure now => exact memory_transition hu
  | cancel key now =>
    simp only [Call.apply, cancel_fst] at hu
    exact memory_transition hu
  | setProgress key fraction message =>
    simp only [Call.apply, setProgress] at hu
    split at hu
    · simp only [update, Store.get?_modify] at hu
      split at hu
      · obtain ⟨t, ht, rfl⟩ := Option.map_eq_some_iff.mp hu
        exact ⟨t, ht, rfl⟩
      · exact ⟨u, hu, rfl⟩
    · exact ⟨u, hu, rfl⟩
  | recordMemory key sample =>
    simp only [Call.apply, recordMemory] at hu
    split at hu
    · simp only [update, Store.get?_modify, if_neg (Ne.symm h)] at hu
      exact ⟨u, hu, rfl⟩
    · exact ⟨u, hu, rfl⟩
  | releaseSlot key => exact ⟨u, by simpa [Call.apply, releaseSlot] using hu, rfl⟩
  | remove key =>
    simp only [Call.apply, remove, Store.get?_erase] at hu
    split at hu
    · cases hu
    · exact ⟨u, hu, rfl⟩
  | sweep now ttl =>
    simp only [Call.apply, sweep, get?_removeAll] at hu
    split at hu
    · cases hu
    · exact ⟨u, hu, rfl⟩

theorem memory_after (h : ∀ c ∈ calls, c.Spares id)
    (hu : (r.after calls).tasks.get? id = some u) :
    ∃ t, r.tasks.get? id = some t ∧ u.memory = t.memory := by
  induction calls generalizing r with
  | nil => exact ⟨u, hu, rfl⟩
  | cons c calls ih =>
    simp only [List.forall_mem_cons] at h
    obtain ⟨v, hv, later⟩ := ih h.2 hu
    obtain ⟨t, ht, now⟩ := memory_apply h.1 hv
    exact ⟨t, ht, later.trans now⟩

end Registry

end TaskFlow
