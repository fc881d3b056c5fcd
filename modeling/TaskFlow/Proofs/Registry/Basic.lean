import TaskFlow.Manager.Registry
import TaskFlow.Proofs.Store

namespace TaskFlow

theorem Status.canBecome_of_isTerminal {s next : Status} (h : s.isTerminal = true) :
    s.canBecome next = false := by
  cases s <;> cases next <;> simp_all [isTerminal, canBecome]

theorem Status.canBecome_canceled {s : Status} : s.canBecome .canceled = !s.isTerminal := by
  cases s <;> rfl

namespace Registry

variable {r : Registry} {id key : String} {now : Instant} {next : Status} {t : TaskRecord}
  {change : TaskInfo → TaskInfo}

theorem acquire?_eq_some {r' : Registry} :
    r.acquire? = some r' ↔ 0 < r.free ∧ r' = { r with free := r.free - 1 } := by
  unfold acquire?
  split
  · next h => simp [h]
  · next h => simp [Nat.pos_of_ne_zero h, eq_comm]

@[simp] theorem tasks_acquire : (r.acquire?.getD r).tasks = r.tasks := by
  unfold acquire?
  split <;> rfl

@[simp] theorem slots_acquire : (r.acquire?.getD r).slots = r.slots := by
  unfold acquire?
  split <;> rfl

@[simp] theorem tasks_dropSlot : (r.dropSlot id).tasks = r.tasks := by
  unfold dropSlot
  split <;> rfl

@[simp] theorem slots_dropSlot : (r.dropSlot id).slots = r.slots.erase id := by
  unfold dropSlot
  split
  · rfl
  · next h => exact (List.erase_of_not_mem (by simpa using h)).symm

theorem size_dropSlot :
    (r.dropSlot id).free + (r.dropSlot id).slots.length = r.free + r.slots.length := by
  unfold dropSlot
  split
  · next h =>
    have hm : id ∈ r.slots := by simpa using h
    have := List.length_erase_add_one hm
    simp only
    omega
  · rfl

@[simp] theorem tasks_insert {info : TaskInfo} {withSlot : Bool} :
    (r.insert info withSlot).tasks = r.tasks.insert info.id ⟨info, []⟩ := by
  cases withSlot <;> simp [insert]

@[simp] theorem slots_insert {info : TaskInfo} :
    (r.insert info true).slots = info.id :: r.slots.erase info.id := by
  simp [insert]

theorem size_insert {info : TaskInfo} : (r.insert info true).free +
    (r.insert info true).slots.length = r.free + r.slots.length + 1 := by
  have size : (r.dropSlot info.id).free + (r.dropSlot info.id).slots.length =
      r.free + r.slots.length := size_dropSlot
  simp only [insert, if_true, List.length_cons]
  omega

def moved (next : Status) (now : Instant) (change : TaskInfo → TaskInfo) (t : TaskRecord) :
    TaskRecord := { t with info := change (enter next now t.info) }

theorem get?_eq : r.get? id = (r.tasks.get? id).map (·.info) := rfl

theorem transition_of_absent (h : r.tasks.get? id = none) :
    r.transition id next now change = (r, .error (.notFound id)) := by
  simp [transition, get?_eq, h]

theorem transition_of_illegal (h : r.tasks.get? id = some t)
    (hs : t.info.status.canBecome next = false) :
    r.transition id next now change = (r, .error (.illegal t.info.status next)) := by
  simp [transition, get?_eq, h, hs]

theorem transition_of_legal (h : r.tasks.get? id = some t)
    (hs : t.info.status.canBecome next = true) :
    r.transition id next now change =
      (if next = .completed ∨ next = .failed then (r.update id (moved next now change)).dropSlot id
        else r.update id (moved next now change), .ok t.info.status) := by
  simp only [transition, get?_eq, h, Option.map_some, hs, if_true]
  rfl

/-- A transition touches no record but that of its task, and that one only if the life of the task
allows it. -/
theorem tasks_transition : (r.transition id next now change).1.tasks =
    if (r.tasks.get? id).any (·.info.status.canBecome next) then
      r.tasks.modify id (moved next now change) else r.tasks := by
  cases h : r.tasks.get? id with
  | none => simp [transition_of_absent h]
  | some t =>
    cases hs : t.info.status.canBecome next with
    | false => simp [transition_of_illegal h hs, hs]
    | true =>
      rw [transition_of_legal h hs]
      split <;> simp [update, hs]

theorem get?_transition_of_ne (h : key ≠ id) :
    (r.transition id next now change).1.tasks.get? key = r.tasks.get? key := by
  rw [tasks_transition]
  split <;> simp [h]

theorem transition_of_error {e : TransitionError}
    (h : (r.transition id next now change).2 = .error e) :
    (r.transition id next now change).1 = r := by
  cases ht : r.tasks.get? id with
  | none => rw [transition_of_absent ht]
  | some t =>
    cases hs : t.info.status.canBecome next with
    | false => rw [transition_of_illegal ht hs]
    | true =>
      rw [transition_of_legal ht hs] at h
      cases h

theorem get?_transition_of_ok {s : Status} (h : (r.transition id next now change).2 = .ok s) :
    ∃ t, r.tasks.get? id = some t ∧ t.info.status.canBecome next = true ∧ t.info.status = s ∧
      (r.transition id next now change).1.tasks.get? id = some (moved next now change t) := by
  cases ht : r.tasks.get? id with
  | none => simp [transition_of_absent ht] at h
  | some t =>
    cases hs : t.info.status.canBecome next with
    | false => simp [transition_of_illegal ht hs] at h
    | true =>
      refine ⟨t, rfl, hs, ?_, ?_⟩
      · simpa [transition_of_legal ht hs] using h
      · rw [tasks_transition]
        simp [ht, hs]

/-- A record after a transition of its task was there before, and was moved or left as it was. -/
theorem get?_transition_eq_some {u : TaskRecord}
    (h : (r.transition id next now change).1.tasks.get? id = some u) :
    ∃ t, r.tasks.get? id = some t ∧
      (t.info.status.canBecome next = true ∧ u = moved next now change t ∨
        t.info.status.canBecome next = false ∧ u = t) := by
  rw [tasks_transition] at h
  cases ht : r.tasks.get? id with
  | none => simp [ht] at h
  | some t =>
    refine ⟨t, rfl, ?_⟩
    cases hs : t.info.status.canBecome next with
    | false =>
      right
      simpa [ht, hs, eq_comm] using h
    | true =>
      left
      simpa [ht, hs, eq_comm] using h

/-- A transition keeps the slots, or takes that of its task away if it completes or fails. -/
theorem slots_transition : (r.transition id next now change).1.slots = r.slots ∨
    (next = .completed ∨ next = .failed) ∧
      (r.transition id next now change).1.slots = r.slots.erase id := by
  cases h : r.tasks.get? id with
  | none => simp [transition_of_absent h]
  | some t =>
    cases hs : t.info.status.canBecome next with
    | false => simp [transition_of_illegal h hs]
    | true =>
      rw [transition_of_legal h hs]
      split
      · next ends => exact .inr ⟨ends, slots_dropSlot⟩
      · exact .inl rfl

theorem slots_transition_of_ne (hc : next ≠ .completed) (hf : next ≠ .failed) :
    (r.transition id next now change).1.slots = r.slots :=
  slots_transition.resolve_right fun h => h.1.elim hc hf

theorem size_transition : (r.transition id next now change).1.free +
    (r.transition id next now change).1.slots.length = r.free + r.slots.length := by
  cases h : r.tasks.get? id with
  | none => simp [transition_of_absent h]
  | some t =>
    cases hs : t.info.status.canBecome next with
    | false => simp [transition_of_illegal h hs]
    | true =>
      rw [transition_of_legal h hs]
      split
      · exact size_dropSlot
      · rfl

/-- No task of an identifier is active: it has ended, or is not known. -/
def Inactive (r : Registry) (id : String) : Prop :=
  ∀ t, r.tasks.get? id = some t → t.info.status.isTerminal = true

theorem inactive_of_some (h : r.tasks.get? id = some t) (ht : t.info.status.isTerminal = true) :
    r.Inactive id := by
  intro u hu
  rw [h] at hu
  cases hu
  exact ht

/-- Every record is that of the task it is kept for. -/
def Keyed (r : Registry) : Prop := ∀ id t, r.tasks.get? id = some t → t.info.id = id

theorem inactive_of_none (h : r.tasks.get? id = none) : r.Inactive id := by
  intro u hu
  rw [h] at hu
  cases hu

theorem get?_transition_of_inactive (h : r.Inactive key) :
    (r.transition id next now change).1.tasks.get? key = r.tasks.get? key := by
  by_cases hk : key = id
  · subst hk
    have illegal : (r.tasks.get? key).any (·.info.status.canBecome next) = false := by
      cases ht : r.tasks.get? key with
      | none => rfl
      | some t => simpa using Status.canBecome_of_isTerminal (h t ht)
    rw [tasks_transition, illegal]
    rfl
  · exact get?_transition_of_ne hk

def noteCanceled (t : TaskInfo) : TaskInfo := { t with message := some "cancelada" }

theorem cancel_fst : (r.cancel id now).1 = (r.transition id .canceled now noteCanceled).1 := by
  unfold cancel noteCanceled
  split <;> next h => rw [h]

@[simp] theorem slots_cancel : (r.cancel id now).1.slots = r.slots := by
  rw [cancel_fst]
  exact slots_transition_of_ne (by simp) (by simp)

theorem size_cancel : (r.cancel id now).1.free + (r.cancel id now).1.slots.length =
    r.free + r.slots.length := by
  rw [cancel_fst]
  exact size_transition

theorem cancel_of_absent (h : r.tasks.get? id = none) :
    r.cancel id now = (r, .error (.notFound id)) := by
  simp [cancel, transition_of_absent h]

theorem cancel_of_isTerminal (h : r.tasks.get? id = some t) (ht : t.info.status.isTerminal = true) :
    r.cancel id now = (r, .ok (.alreadyTerminal t.info.status)) := by
  simp [cancel, transition_of_illegal h (Status.canBecome_of_isTerminal ht)]

theorem cancel_of_active (h : r.tasks.get? id = some t) (ht : t.info.status.isTerminal = false) :
    r.cancel id now =
      (r.update id (moved .canceled now noteCanceled), .ok (.canceled t.info.status)) := by
  have hs : t.info.status.canBecome .canceled = true := by simp [Status.canBecome_canceled, ht]
  simp [cancel, transition_of_legal h hs]
  rfl

theorem inactive_cancel : (r.cancel id now).1.Inactive id := by
  cases ht : r.tasks.get? id with
  | none =>
    rw [cancel_of_absent ht]
    exact inactive_of_none ht
  | some t =>
    cases active : t.info.status.isTerminal with
    | true =>
      rw [cancel_of_isTerminal ht active]
      exact inactive_of_some ht active
    | false =>
      rw [cancel_of_active ht active]
      refine inactive_of_some (t := moved .canceled now noteCanceled t) ?_ rfl
      simp [update, ht]

theorem mem_activeIds (keyed : r.Keyed) (h : ¬r.Inactive id) : id ∈ r.activeIds := by
  simp only [Inactive, not_forall, Bool.not_eq_true] at h
  obtain ⟨t, ht, active⟩ := h
  simp only [activeIds, List.mem_map, List.mem_filter, Store.values]
  exact ⟨t, ⟨⟨_, Store.mem_of_get? ht, rfl⟩, by simp [active]⟩, keyed id t ht⟩

theorem isRunning_eq : r.isRunning id = (r.tasks.get? id).any (·.info.status == .running) := by
  cases h : r.tasks.get? id <;> simp [isRunning, get?_eq, h]

theorem isRunning_of_inactive (h : r.Inactive id) : r.isRunning id = false := by
  rw [isRunning_eq]
  cases ht : r.tasks.get? id with
  | none => rfl
  | some t =>
    have := h t ht
    cases hs : t.info.status <;> simp_all [Status.isTerminal]

@[simp] theorem slots_setProgress {fraction : Single} {message : Option String} :
    (r.setProgress id fraction message).1.slots = r.slots := by
  unfold setProgress
  split <;> rfl

@[simp] theorem free_setProgress {fraction : Single} {message : Option String} :
    (r.setProgress id fraction message).1.free = r.free := by
  unfold setProgress
  split <;> rfl

@[simp] theorem slots_recordMemory {sample : MemorySample} :
    (r.recordMemory id sample).1.slots = r.slots := by
  unfold recordMemory
  split <;> rfl

@[simp] theorem free_recordMemory {sample : MemorySample} :
    (r.recordMemory id sample).1.free = r.free := by
  unfold recordMemory
  split <;> rfl

theorem get?_setProgress {fraction : Single} {message : Option String} (h : r.Inactive key) :
    (r.setProgress id fraction message).1.tasks.get? key = r.tasks.get? key := by
  unfold setProgress
  by_cases hk : key = id
  · subst hk
    simp [isRunning_of_inactive h]
  · split <;> simp [update, hk]

theorem get?_recordMemory {sample : MemorySample} (h : r.Inactive key) :
    (r.recordMemory id sample).1.tasks.get? key = r.tasks.get? key := by
  unfold recordMemory
  by_cases hk : key = id
  · subst hk
    simp [isRunning_of_inactive h]
  · split <;> simp [update, hk]

theorem get?_setProgress_eq_some {fraction : Single} {message : Option String} {u : TaskRecord}
    (h : (r.setProgress id fraction message).1.tasks.get? id = some u) :
    ∃ t progress message,
      r.tasks.get? id = some t ∧ u.info = { t.info with progress, message } := by
  unfold setProgress at h
  split at h
  · simp only [update, Store.get?_modify, if_true, Option.map_eq_some_iff] at h
    obtain ⟨t, ht, rfl⟩ := h
    exact ⟨t, _, _, ht, rfl⟩
  · exact ⟨u, u.info.progress, u.info.message, h, rfl⟩

theorem get?_recordMemory_eq_some {sample : MemorySample} {u : TaskRecord}
    (h : (r.recordMemory id sample).1.tasks.get? id = some u) :
    ∃ t, r.tasks.get? id = some t ∧ u.info = t.info := by
  unfold recordMemory at h
  split at h
  · simp only [update, Store.get?_modify, if_true, Option.map_eq_some_iff] at h
    obtain ⟨t, ht, rfl⟩ := h
    exact ⟨t, ht, rfl⟩
  · exact ⟨u, h, rfl⟩

theorem inactive_remove : (r.remove id).1.Inactive id := inactive_of_none (by simp [remove])

theorem get?_removeAll {ids : List String} :
    (r.removeAll ids).1.tasks.get? key = if key ∈ ids then none else r.tasks.get? key := by
  induction ids generalizing r with
  | nil => simp [removeAll]
  | cons id ids ih =>
    simp only [removeAll, ih, remove, Store.get?_erase, List.mem_cons]
    grind

end Registry

end TaskFlow
