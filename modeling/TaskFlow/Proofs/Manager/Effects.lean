import TaskFlow.Manager.Action
import TaskFlow.Proofs.Cache.Basic
import TaskFlow.Proofs.Registry.Basic

namespace TaskFlow.Manager

def Action.key? : Action → Option String
  | .isAccepting | .acquire | .list | .expired _ | .stopAccepting | .stopSweeping => none
  | .activeIds | .drain => none
  | .record id _ | .forget id | .release id | .launch id _ | .register id => some id
  | .unregister id | .isSupervised id | .send id _ | .info id | .samples id => some id
  | .cancel id | .markRunning id => some id
  | .noteProgress id .. | .noteMemory id _ | .complete id _ | .fail id _ | .store id .. => some id
  | .fetch id | .acknowledge id | .evict id | .load id | .removeArtifact id | .reap id => some id

/-- Whether an action may give a slot or a worker to a task, or take one away. -/
def Action.Affects (id : String) : Action → Prop
  | .record key _ | .release key | .complete key _ | .fail key _ | .launch key _ | .reap key =>
    key = id
  | _ => False

variable {m : Manager} {act : Action} {id : String}

theorem apply_acquire : (Action.acquire.apply m).1 =
    { m with registry := m.registry.acquire?.getD m.registry } := by
  simp only [Action.apply, acquire]
  split <;> next h => rw [h]; rfl

theorem acquire_snd : m.acquire.2 =
    if m.registry.free = 0 then .error (.resourceExhausted m.config.maxConcurrency)
    else .ok () := by
  simp only [acquire, Registry.acquire?]
  split <;> simp_all

theorem Action.not_affects_of_ne (h : act.key? ≠ some id) : ¬act.Affects id := by
  cases act <;> simp_all [key?, Affects]

@[simp] theorem config_apply : (act.apply m).1.config = m.config := by
  cases act with
  | acquire => rw [apply_acquire]
  | _ => rfl

theorem worker_apply_of_ne (h : act.key? ≠ some id) :
    (act.apply m).1.workers.get? id = m.workers.get? id := by
  cases act with
  | acquire => rw [apply_acquire]
  | launch key job =>
    have : id ≠ key := by simpa [Action.key?, eq_comm] using h
    simp [Action.apply, Manager.launch, this]
  | reap key =>
    have : id ≠ key := by simpa [Action.key?, eq_comm] using h
    simp [Action.apply, this]
  | send key mode =>
    have : id ≠ key := by simpa [Action.key?, eq_comm] using h
    simp [Action.apply, Manager.send, this]
  | _ => rfl

theorem has_worker_apply (h : ¬act.Affects id) :
    (act.apply m).1.workers.has id = m.workers.has id := by
  cases act with
  | acquire => rw [apply_acquire]
  | launch key job =>
    have : id ≠ key := Ne.symm h
    simp [Action.apply, Manager.launch, this]
  | reap key =>
    have : id ≠ key := Ne.symm h
    simp [Action.apply, this]
  | send key mode => simp [Action.apply, Manager.send]
  | _ => rfl

theorem has_worker_of_apply (h : m.workers.has id = true) (hr : act ≠ .reap id) :
    (act.apply m).1.workers.has id = true := by
  cases act with
  | acquire => rwa [apply_acquire]
  | launch key job => simp [Action.apply, Manager.launch, h]
  | reap key =>
    have : id ≠ key := fun e => hr (e ▸ rfl)
    simp [Action.apply, h, this]
  | send key mode => simpa [Action.apply, Manager.send] using h
  | _ => exact h

theorem nodup_workers_apply (h : m.workers.ids.Nodup) : (act.apply m).1.workers.ids.Nodup := by
  cases act with
  | acquire => rwa [apply_acquire]
  | launch key job => exact Store.nodup_insert h
  | reap key => exact Store.nodup_erase h
  | send key mode => simpa [Action.apply, Manager.send] using h
  | _ => exact h

def Action.takesSlot : (act : Action) → act.Answer → Bool
  | .acquire, .ok () => true
  | _, _ => false

def Action.placesSlot : Action → Bool
  | .record .. => true
  | _ => false

theorem slot_apply (h : ¬act.Affects id) :
    id ∈ (act.apply m).1.registry.slots ↔ id ∈ m.registry.slots := by
  have kept {key : String} {next : Status} {change : TaskInfo → TaskInfo} (hk : id ≠ key) :
      id ∈ (m.registry.transition key next m.now change).1.slots ↔ id ∈ m.registry.slots := by
    rcases Registry.slots_transition with same | ⟨-, dropped⟩
    · rw [same]
    · rw [dropped, List.mem_erase_of_ne hk]
  cases act with
  | acquire => simp [apply_acquire]
  | record key kind =>
    have hk : id ≠ key := Ne.symm h
    simp [Action.apply, TaskInfo.queued, hk, List.mem_erase_of_ne hk]
  | release key =>
    have hk : id ≠ key := Ne.symm h
    simp [Action.apply, onRegistry, Registry.releaseSlot, List.mem_erase_of_ne hk]
  | complete key result => exact kept (Ne.symm h)
  | fail key failure => exact kept (Ne.symm h)
  | cancel key => simp [Action.apply, onRegistry]
  | markRunning key =>
    simp only [Action.apply, onRegistry, Registry.markRunning]
    rw [Registry.slots_transition_of_ne (by simp) (by simp)]
  | noteProgress key fraction message => simp [Action.apply, onRegistry]
  | noteMemory key bytes => simp [Action.apply, onRegistry]
  | _ => rfl

/-- A slot that a task holds after an action it held before, unless it is just recorded. -/
theorem slot_of_apply (h : ∀ kind, act ≠ .record id kind)
    (held : id ∈ (act.apply m).1.registry.slots) : id ∈ m.registry.slots := by
  have kept {key : String} {next : Status} {change : TaskInfo → TaskInfo}
      (held : id ∈ (m.registry.transition key next m.now change).1.slots) :
      id ∈ m.registry.slots := by
    rcases Registry.slots_transition with same | ⟨-, dropped⟩
    · rwa [same] at held
    · rw [dropped] at held
      exact List.mem_of_mem_erase held
  cases act with
  | record key kind =>
    refine (slot_apply fun e => ?_).mp held
    subst e
    exact h kind rfl
  | release key =>
    refine List.mem_of_mem_erase (b := key) ?_
    simpa [Action.apply, onRegistry, Registry.releaseSlot] using held
  | complete key result => exact kept held
  | fail key failure => exact kept held
  | launch key job => exact held
  | reap key => exact held
  | _ => exact (slot_apply (by simp [Action.Affects])).mp held

theorem nodup_slots_apply (h : m.registry.slots.Nodup) :
    (act.apply m).1.registry.slots.Nodup := by
  -- `kept` is about every transition: completing and failing are the ones that drop a slot
  have kept {key : String} {next : Status} {change : TaskInfo → TaskInfo} :
      (m.registry.transition key next m.now change).1.slots.Nodup := by
    rcases Registry.slots_transition with same | ⟨-, dropped⟩
    · rwa [same]
    · rw [dropped]
      exact h.erase _
  cases act with
  | acquire => simpa [apply_acquire] using h
  | record key kind =>
    simp only [Action.apply, Registry.slots_insert]
    exact List.nodup_cons.mpr ⟨h.not_mem_erase, h.erase _⟩
  | release key => simpa [Action.apply, onRegistry, Registry.releaseSlot] using h.erase key
  | complete key result => exact kept
  | fail key failure => exact kept
  | markRunning key => exact kept
  | cancel key => simpa [Action.apply, onRegistry] using h
  | noteProgress key fraction message => simpa [Action.apply, onRegistry] using h
  | noteMemory key bytes => simpa [Action.apply, onRegistry] using h
  | _ => exact h

/-- Slots are taken from the free ones, carried into the registry, and given back: none is lost. -/
theorem size_apply (m : Manager) (act : Action) :
    (act.apply m).1.registry.free + (act.apply m).1.registry.slots.length +
        (act.takesSlot (act.apply m).2).toNat =
      m.registry.free + m.registry.slots.length + act.placesSlot.toNat := by
  cases act with
  | acquire =>
    simp only [Action.apply, acquire]
    split
    · next r hr =>
      obtain ⟨free, rfl⟩ := Registry.acquire?_eq_some.mp hr
      simp only [Action.takesSlot, Action.placesSlot, Bool.toNat_true, Bool.toNat_false]
      omega
    · rfl
  | record key kind => exact Registry.size_insert
  | release key => exact Registry.size_dropSlot
  | complete key result => exact Registry.size_transition
  | fail key failure => exact Registry.size_transition
  | markRunning key => exact Registry.size_transition
  | cancel key => exact Registry.size_cancel
  | noteProgress key fraction message =>
    simp [Action.apply, onRegistry, Action.takesSlot, Action.placesSlot]
  | noteMemory key bytes => simp [Action.apply, onRegistry, Action.takesSlot, Action.placesSlot]
  | _ => rfl

theorem record_apply_of_ne (h : act.key? ≠ some id) :
    (act.apply m).1.registry.tasks.get? id = m.registry.tasks.get? id := by
  have kept {key : String} {next : Status} {change : TaskInfo → TaskInfo} (hk : key ≠ id) :
      (m.registry.transition key next m.now change).1.tasks.get? id = m.registry.tasks.get? id :=
    Registry.get?_transition_of_ne (Ne.symm hk)
  cases act with
  | acquire => simp [apply_acquire]
  | record key kind =>
    have : id ≠ key := by simpa [Action.key?, eq_comm] using h
    simp [Action.apply, TaskInfo.queued, this]
  | forget key =>
    have : id ≠ key := by simpa [Action.key?, eq_comm] using h
    simp [Action.apply, onRegistry, Registry.remove, this]
  | release key => simp [Action.apply, onRegistry, Registry.releaseSlot]
  | cancel key =>
    simp only [Action.apply, onRegistry, Registry.cancel_fst]
    exact kept (by simpa [Action.key?] using h)
  | markRunning key => exact kept (by simpa [Action.key?] using h)
  | complete key result => exact kept (by simpa [Action.key?] using h)
  | fail key failure => exact kept (by simpa [Action.key?] using h)
  | noteProgress key fraction message =>
    have : id ≠ key := by simpa [Action.key?, eq_comm] using h
    simp only [Action.apply, onRegistry, Registry.setProgress]
    split <;> simp [Registry.update, this]
  | noteMemory key bytes =>
    have : id ≠ key := by simpa [Action.key?, eq_comm] using h
    simp only [Action.apply, onRegistry, Registry.recordMemory]
    split <;> simp [Registry.update, this]
  | _ => rfl

theorem record_apply_of_inactive (h : m.registry.Inactive id) (hr : ∀ kind, act ≠ .record id kind) :
    (act.apply m).1.registry.tasks.get? id = m.registry.tasks.get? id ∨
      (act.apply m).1.registry.tasks.get? id = none := by
  -- of the actions about the task itself, each operation of the registry has its own guard
  by_cases hk : act.key? = some id
  · cases act with
    | record key kind => cases hk; exact absurd rfl (hr kind)
    | forget key => cases hk; simp [Action.apply, onRegistry, Registry.remove]
    | release key => simp [Action.apply, onRegistry, Registry.releaseSlot]
    | cancel key =>
      simp only [Action.apply, onRegistry, Registry.cancel_fst]
      exact .inl (Registry.get?_transition_of_inactive h)
    | markRunning key => exact .inl (Registry.get?_transition_of_inactive h)
    | complete key result => exact .inl (Registry.get?_transition_of_inactive h)
    | fail key failure => exact .inl (Registry.get?_transition_of_inactive h)
    | noteProgress key fraction message => exact .inl (Registry.get?_setProgress h)
    | noteMemory key bytes => exact .inl (Registry.get?_recordMemory h)
    | acquire => cases hk
    | _ => exact .inl rfl
  · exact .inl (record_apply_of_ne hk)

/-- A task that has ended, or is not known, comes back to life by a new record only. -/
theorem inactive_apply (h : m.registry.Inactive id) (hr : ∀ kind, act ≠ .record id kind) :
    (act.apply m).1.registry.Inactive id := by
  rcases record_apply_of_inactive h hr with same | gone
  · exact fun t ht => h t (same ▸ ht)
  · exact Registry.inactive_of_none gone

theorem absent_apply (h : m.registry.tasks.get? id = none) (hr : ∀ kind, act ≠ .record id kind) :
    (act.apply m).1.registry.tasks.get? id = none := by
  rcases record_apply_of_inactive (Registry.inactive_of_none h) hr with same | gone
  · exact same.trans h
  · exact gone

theorem forget_of_gone {t : TaskRecord} (ht : m.registry.tasks.get? id = some t)
    (gone : (act.apply m).1.registry.tasks.get? id = none) : act = .forget id := by
  -- everything else changes a record in its place, or makes a new one
  have changed {r : Registry} {key : String} {f : TaskRecord → TaskRecord}
      (ht : r.tasks.get? id = some t) (gone : (r.update key f).tasks.get? id = none) : False := by
    rw [Registry.update, Store.get?_modify, ht] at gone
    split at gone <;> cases gone
  have kept {key : String} {next : Status} {change : TaskInfo → TaskInfo}
      (gone : (m.registry.transition key next m.now change).1.tasks.get? id = none) : False := by
    rw [Registry.tasks_transition] at gone
    split at gone
    · exact changed ht gone
    · cases ht.symm.trans gone
  cases act with
  | acquire =>
    rw [apply_acquire, Registry.tasks_acquire, ht] at gone
    cases gone
  | record key kind =>
    simp only [Action.apply, Registry.tasks_insert, Store.get?_insert, ht] at gone
    split at gone <;> cases gone
  | forget key =>
    simp only [Action.apply, onRegistry, Registry.remove, Store.get?_erase, ht] at gone
    split at gone
    · next hk => rw [hk]
    · cases gone
  | release key =>
    simp only [Action.apply, onRegistry, Registry.releaseSlot, Registry.tasks_dropSlot, ht] at gone
    cases gone
  | cancel key =>
    simp only [Action.apply, onRegistry, Registry.cancel_fst] at gone
    exact (kept gone).elim
  | markRunning key => exact (kept gone).elim
  | complete key result => exact (kept gone).elim
  | fail key failure => exact (kept gone).elim
  | noteProgress key fraction message =>
    simp only [Action.apply, onRegistry, Registry.setProgress] at gone
    split at gone
    · exact (changed ht gone).elim
    · cases ht.symm.trans gone
  | noteMemory key bytes =>
    simp only [Action.apply, onRegistry, Registry.recordMemory] at gone
    split at gone
    · exact (changed ht gone).elim
    · cases ht.symm.trans gone
  | _ => cases ht.symm.trans gone

/-- Whether an action may change what is known of a task. -/
def Action.Advances (id : String) : Action → Prop
  | .record key _ | .markRunning key | .cancel key | .complete key _ | .fail key _
  | .noteProgress key .. => key = id
  | _ => False

theorem Action.not_advances_of_ne (h : act.key? ≠ some id) : ¬act.Advances id := by
  cases act <;> simp_all [key?, Advances]

theorem info_apply {u : TaskRecord} (h : ¬act.Advances id)
    (hu : (act.apply m).1.registry.tasks.get? id = some u) :
    ∃ t, m.registry.tasks.get? id = some t ∧ u.info = t.info := by
  by_cases hk : act.key? = some id
  · cases act with
    | forget key => cases hk; simp [Action.apply, onRegistry, Registry.remove] at hu
    | release key =>
      exact ⟨u, by simpa [Action.apply, onRegistry, Registry.releaseSlot] using hu, rfl⟩
    | noteMemory key bytes => cases hk; exact Registry.get?_recordMemory_eq_some hu
    | acquire => cases hk
    | _ => first | exact ⟨u, hu, rfl⟩ | (cases hk; exact absurd rfl h)
  · exact ⟨u, record_apply_of_ne hk ▸ hu, rfl⟩

theorem keyed_apply (h : m.registry.Keyed) : (act.apply m).1.registry.Keyed := by
  intro id u hu
  -- a transition keeps the identifier if its change of the record does
  have kept {next : Status} {change : TaskInfo → TaskInfo}
      (hu : (m.registry.transition id next m.now change).1.tasks.get? id = some u)
      (same : ∀ t, (change t).id = t.id) : u.info.id = id := by
    obtain ⟨t, ht, ⟨-, rfl⟩ | ⟨-, rfl⟩⟩ := Registry.get?_transition_eq_some hu
    · simpa [Registry.moved, same, Registry.enter] using h id t ht
    · exact h id u ht
  by_cases hk : act.key? = some id
  · cases act with
    | record key kind =>
      cases hk
      simp only [Action.apply, Registry.tasks_insert, TaskInfo.queued, Store.get?_insert, if_true,
        Option.some.injEq] at hu
      rw [← hu]
    | forget key =>
      cases hk
      simp [Action.apply, onRegistry, Registry.remove] at hu
    | release key =>
      exact h id u (by simpa [Action.apply, onRegistry, Registry.releaseSlot] using hu)
    | cancel key =>
      cases hk
      simp only [Action.apply, onRegistry, Registry.cancel_fst] at hu
      exact kept hu fun _ => rfl
    | markRunning key => cases hk; exact kept hu fun _ => rfl
    | complete key result => cases hk; exact kept hu fun _ => rfl
    | fail key failure => cases hk; exact kept hu fun _ => rfl
    | noteProgress key fraction message =>
      cases hk
      obtain ⟨t, progress, message, ht, info⟩ := Registry.get?_setProgress_eq_some hu
      simpa [info] using h id t ht
    | noteMemory key bytes =>
      cases hk
      obtain ⟨t, ht, info⟩ := Registry.get?_recordMemory_eq_some hu
      simpa [info] using h id t ht
    | acquire => cases hk
    | _ => exact h id u hu
  · exact h id u (record_apply_of_ne hk ▸ hu)

theorem alike_of_apply {e : CacheEntry} (h : (act.apply m).1.cache.entries.get? id = some e)
    (hs : ∀ table bytes, act ≠ .store id table bytes) :
    act ≠ .evict id ∧ ∃ before, m.cache.entries.get? id = some before ∧ before.Alike e := by
  cases act with
  | acquire => exact ⟨by simp, e, by rwa [apply_acquire] at h, rfl, rfl⟩
  | store key table bytes =>
    have hk : id ≠ key := fun same => hs table bytes (same ▸ rfl)
    exact ⟨by simp, e, Cache.get?_of_put h hk, rfl, rfl⟩
  | fetch key => exact ⟨by simp, Cache.alike_of_get h⟩
  | acknowledge key => exact ⟨by simp, e, Cache.get?_of_acknowledge h, rfl, rfl⟩
  | evict key =>
    simp only [Action.apply, onCache, Cache.evict, Cache.get?_drop] at h
    split at h
    · cases h
    · next hk => exact ⟨by simpa [eq_comm] using hk, e, h, rfl, rfl⟩
  | _ => exact ⟨by simp, e, h, rfl, rfl⟩

theorem cached_of_apply (h : (act.apply m).1.cache.entries.has id = true)
    (hs : ∀ table bytes, act ≠ .store id table bytes) : m.cache.entries.has id = true := by
  obtain ⟨e, found⟩ := Store.has_iff.mp h
  obtain ⟨-, before, found, -⟩ := alike_of_apply found hs
  exact Store.has_iff.mpr ⟨before, found⟩

def Action.KeepsFiles : Action → Prop
  | .removeArtifact _ => False
  | _ => True

theorem files_apply (h : act.KeepsFiles) : (act.apply m).1.files = m.files := by
  cases act with
  | acquire => rw [apply_acquire]
  | removeArtifact key => exact h.elim
  | _ => rfl

@[simp] theorem artifactPath_apply : (act.apply m).1.artifactPath id = m.artifactPath id := by
  rw [artifactPath, config_apply]
  rfl

/-- Whether a task has a worker that nobody asked to stop. -/
def Unasked (m : Manager) (id : String) : Prop :=
  ∃ l, m.workers.get? id = some l ∧ l.stops = []

theorem unasked_of_apply (h : Unasked (act.apply m).1 id) (hl : ∀ job, act ≠ .launch id job) :
    Unasked m id ∧ ∀ mode, act ≠ .send id mode := by
  by_cases hk : act.key? = some id
  · cases act with
    | launch key job => cases hk; exact absurd rfl (hl job)
    | reap key => cases hk; simp [Unasked, Action.apply] at h
    | send key mode =>
      cases hk
      obtain ⟨l, hl, stops⟩ := h
      simp only [Action.apply, Manager.send, Store.get?_modify, if_true,
        Option.map_eq_some_iff] at hl
      obtain ⟨l, -, rfl⟩ := hl
      simp at stops
    | acquire => cases hk
    | _ => exact ⟨h, by simp⟩
  · refine ⟨?_, fun mode e => hk (e ▸ rfl)⟩
    obtain ⟨l, hl, stops⟩ := h
    exact ⟨l, worker_apply_of_ne hk ▸ hl, stops⟩

theorem supervisor_apply (h : id ∈ m.supervisors) (hu : act ≠ .unregister id) (hd : act ≠ .drain) :
    id ∈ (act.apply m).1.supervisors := by
  cases act with
  | acquire => rwa [apply_acquire]
  | register key => exact List.mem_cons_of_mem _ h
  | unregister key =>
    have hk : id ≠ key := fun e => hu (e ▸ rfl)
    exact (List.mem_erase_of_ne hk).mpr h
  | drain => exact absurd rfl hd
  | _ => exact h

theorem supervisor_of_apply (hr : act ≠ .register id) (h : id ∈ (act.apply m).1.supervisors) :
    id ∈ m.supervisors := by
  cases act with
  | acquire => rwa [apply_acquire] at h
  | register key =>
    have hk : id ≠ key := fun e => hr (e ▸ rfl)
    exact (List.mem_cons.mp h).resolve_left hk
  | unregister key => exact List.mem_of_mem_erase h
  | drain => cases h
  | _ => exact h

theorem accepting_apply (h : m.accepting = false) : (act.apply m).1.accepting = false := by
  cases act with
  | acquire => rwa [apply_acquire]
  | _ => first | exact h | rfl

end TaskFlow.Manager
