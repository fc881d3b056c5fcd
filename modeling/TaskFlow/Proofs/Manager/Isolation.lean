import TaskFlow.Proofs.FileSystem.Basic
import TaskFlow.Proofs.Manager.Slots

namespace TaskFlow

def Outcome.IsSuccess : Outcome → Prop
  | .succeeded .. => True
  | _ => False

namespace Manager

variable {m m' m'' : Manager} {act : Action} {id key : String} {o : Outcome}

/-- Actions that the supervision of a task may take. Those about its result come after a success
only. -/
def Action.Supervises (id : String) (o : Outcome) : Action → Prop
  | .markRunning key | .noteProgress key .. | .fail key _ | .cancel key => key = id
  | .removeArtifact key | .reap key | .release key | .unregister key => key = id
  | .load key | .store key .. | .complete key _ | .evict key => key = id ∧ o.IsSuccess
  | _ => False

theorem Action.Supervises.key?_ne (h : act.Supervises id o) (other : key ≠ id) :
    act.key? ≠ some key := by
  cases act <;> simp_all [Supervises, key?, eq_comm]

theorem Action.Commits.supervises (h : act.Commits id) (success : o.IsSuccess) :
    act.Supervises id o := by
  cases act <;> first | exact h | exact ⟨h, success⟩ | exact h.elim

section Supervision

variable (id o)

theorem supervises_recordFailure (failure : TaskFailure) :
    (recordFailure id failure).Uses (Action.Supervises id o) := ⟨rfl, fun _ => trivial⟩

theorem supervises_finalize : (finalize id o).Uses (Action.Supervises id o) := by
  have clear : (removeArtifact id).Uses (Action.Supervises id o) := ⟨rfl, fun _ => trivial⟩
  cases o with
  | succeeded path rows bytes =>
    refine ⟨rfl, fun _ => ⟨⟨rfl, trivial⟩, ?_⟩⟩
    rintro (e | ⟨table, size⟩)
    · exact (supervises_recordFailure id _ _).bind fun _ => clear
    · have success : (Outcome.succeeded path rows bytes).IsSuccess := trivial
      exact ((uses_commit id table size).mono fun _ h => h.supervises success).bind fun _ => clear
  | failed | crashed => exact ⟨rfl, fun _ => supervises_recordFailure id _ _⟩
  | stopped forced => exact ⟨rfl, fun _ => clear⟩

theorem supervises_observeAll (ms : List Message) :
    (observeAll id ms).Uses (Action.Supervises id o) := by
  induction ms with
  | nil => trivial
  | cons m ms ih =>
    have observed : (observe id m).Uses (Action.Supervises id o) := by
      cases m with
      | started => exact ⟨rfl, fun r => by cases r <;> trivial⟩
      | progress fraction message => exact ⟨rfl, fun _ => trivial⟩
      | completed | failed => trivial
    exact observed.bind fun _ => ih

theorem supervises_supervise (c : Course) :
    (supervise id c).Uses (Action.Supervises id c.outcome) := by
  refine (supervises_observeAll id _ c.messages).bind fun _ => ⟨rfl, fun _ => ?_⟩
  exact (supervises_finalize id c.outcome).bind fun _ => ⟨rfl, fun _ => ⟨rfl, fun _ => trivial⟩⟩

end Supervision

/-- What the supervision of a task leaves alone: everything of other tasks, except that some of
their results may be dropped after a success. -/
structure Isolated (id : String) (o : Outcome) (m m' : Manager) : Prop where
  info : ∀ key, key ≠ id → m'.registry.get? key = m.registry.get? key
  memory : ∀ key, key ≠ id → m'.registry.memory key = m.registry.memory key
  slot : ∀ key, key ≠ id → (key ∈ m'.registry.slots ↔ key ∈ m.registry.slots)
  worker : ∀ key, key ≠ id → m'.workers.get? key = m.workers.get? key
  supervisor : ∀ key, key ≠ id → (key ∈ m'.supervisors ↔ key ∈ m.supervisors)
  place : m'.files.locate (m'.artifactPath id) = m.files.locate (m.artifactPath id)
  files : ∀ l, m.files.locate (m.artifactPath id) ≠ .ok l → m'.files.node? l = m.files.node? l
  cached : ∀ key, key ≠ id → ∀ e, m'.cache.entries.get? key = some e →
    m.cache.entries.get? key = some e
  cache : ¬o.IsSuccess → m'.cache = m.cache

theorem Isolated.refl (id : String) (o : Outcome) (m : Manager) : Isolated id o m m where
  info _ _ := rfl
  memory _ _ := rfl
  slot _ _ := Iff.rfl
  worker _ _ := rfl
  supervisor _ _ := Iff.rfl
  place := rfl
  files _ _ := rfl
  cached _ _ _ h := h
  cache _ := rfl

theorem Isolated.trans (h : Isolated id o m m') (h' : Isolated id o m' m'') :
    Isolated id o m m'' where
  info key other := (h'.info key other).trans (h.info key other)
  memory key other := (h'.memory key other).trans (h.memory key other)
  slot key other := (h'.slot key other).trans (h.slot key other)
  worker key other := (h'.worker key other).trans (h.worker key other)
  supervisor key other := (h'.supervisor key other).trans (h.supervisor key other)
  place := h'.place.trans h.place
  files l other := (h'.files l (h.place ▸ other)).trans (h.files l other)
  cached key other e found := h.cached key other e (h'.cached key other e found)
  cache failed := (h'.cache failed).trans (h.cache failed)

theorem locate_withoutArtifact : (m.withoutArtifact id).files.locate (m.artifactPath id) =
    m.files.locate (m.artifactPath id) := by
  rw [withoutArtifact]
  cases removed : m.files.remove (m.artifactPath id) with
  | ok files => exact FileSystem.locate_of_remove removed
  | error e => rfl

theorem node?_withoutArtifact {l : Location} (other : m.files.locate (m.artifactPath id) ≠ .ok l) :
    (m.withoutArtifact id).files.node? l = m.files.node? l := by
  rw [withoutArtifact]
  cases removed : m.files.remove (m.artifactPath id) with
  | ok files => exact FileSystem.node?_of_remove removed other
  | error e => rfl

/-- An action about a task leaves the results of others as they are, unless it makes room for one of
its own. -/
theorem cached_apply_of_supervises {e : CacheEntry} (h : act.Supervises id o) (other : key ≠ id)
    (found : (act.apply m).1.cache.entries.get? key = some e) :
    m.cache.entries.get? key = some e := by
  cases act with
  | store task table bytes =>
    obtain ⟨rfl, -⟩ := h
    exact Cache.get?_of_put found other
  | evict task =>
    obtain ⟨rfl, -⟩ := h
    simpa [Action.apply, onCache, Cache.evict, other] using found
  | _ => first | exact h.elim | exact found

theorem isolated_apply (h : act.Supervises id o) : Isolated id o m (act.apply m).1 where
  info key other := by
    rw [Registry.get?, record_apply_of_ne (h.key?_ne other), Registry.get?]
  memory key other := by
    rw [Registry.memory, record_apply_of_ne (h.key?_ne other), Registry.memory]
  slot key other := slot_apply (Action.not_affects_of_ne (h.key?_ne other))
  worker key other := worker_apply_of_ne (h.key?_ne other)
  supervisor key other := by
    cases act with
    | unregister task =>
      obtain rfl := h
      exact List.mem_erase_of_ne other
    | _ => first | exact h.elim | exact Iff.rfl
  place := by
    rw [artifactPath_apply]
    cases act with
    | removeArtifact task =>
      obtain rfl := h
      exact locate_withoutArtifact
    | _ => first | exact h.elim | rfl
  files l other := by
    cases act with
    | removeArtifact task =>
      obtain rfl := h
      exact node?_withoutArtifact other
    | _ => first | exact h.elim | rfl
  cached key other e := cached_apply_of_supervises h other
  cache failed := by
    cases act with
    | store | evict => exact absurd h.2 failed
    | _ => first | exact h.elim | rfl

/-- Whether two managers differ in their files only, and not in what is read at the path of an
artifact. -/
structure Alike (id : String) (m m' : Manager) : Prop where
  rest : m' = { m with files := m'.files }
  artifact : m'.files.read (m'.artifactPath id) = m.files.read (m.artifactPath id)

theorem alike_apply (h : act.Supervises id o) (alike : Alike id m m') :
    (act.apply m').2 = (act.apply m).2 ∧ Alike id (act.apply m).1 (act.apply m').1 := by
  obtain ⟨rest, artifact⟩ := alike
  generalize m'.files = files at rest artifact
  subst rest
  cases act with
  | load task =>
    obtain ⟨rfl, -⟩ := h
    refine ⟨?_, rfl, artifact⟩
    change loadArtifact _ task = loadArtifact _ task
    simp only [loadArtifact, FileSystem.readTable, FileSystem.readJsonl, artifact]
  | removeArtifact task =>
    obtain rfl := h
    refine ⟨rfl, rfl, FileSystem.read_removed.trans ?_⟩
    rw [artifact]
    exact FileSystem.read_removed.symm
  | _ => first | exact h.elim | exact ⟨rfl, rfl, artifact⟩

/-- A supervision leaves the other tasks and all files but its artifact alone, on its own and with
everybody else acting in between. -/
theorem supervision_isolated (id : String) (c : Course) :
    (∀ m : Manager, Isolated id c.outcome m ((supervise id c).run m).1) ∧
    (∀ m m' : Manager, Alike id m m' →
      Alike id ((supervise id c).run m).1 ((supervise id c).run m').1) ∧
    ∀ config es s, Run config es s → ∀ e ∈ es, e.role = .supervision id c →
      Isolated id c.outcome e.before.manager e.after := by
  -- both a run alone and a run among others take only actions that a supervision may take
  have supervises := supervises_supervise id c
  refine ⟨fun m => ?_, fun m m' alike => ?_, fun config es s run e he role => ?_⟩
  · exact supervises.run (I := Isolated id c.outcome m)
      (fun _ _ allowed soFar => soFar.trans (isolated_apply allowed)) (.refl _ _ _)
  · exact (supervises.run_related (fun _ _ _ allowed => alike_apply allowed) alike).2
  · exact isolated_apply ((run.uses supervises).1 e he role)

/-- A worker crashes; the other task is still there, and keeps its slot and its artifact. -/
theorem neighbor_of_crash :
    Alike "a" twoTasks.2.manager { twoTasks.2.manager with files := spool ["b"] } ∧
    let m := ((supervise "a" crash).run { twoTasks.2.manager with files := spool ["b"] }).1
    (m.registry.get? "a").map (·.status) = some .failed ∧
    (m.registry.get? "b").map (·.status) = some .queued ∧ "b" ∈ m.registry.slots ∧
    m.files.node? ["tmp", "flow-tasks", "b.jsonl"] = some (.file [49, 10]) := by
  obtain ⟨isolated, alike, -⟩ := supervision_isolated "a" crash
  have same : Alike "a" twoTasks.2.manager
      { twoTasks.2.manager with files := spool ["b"] } := ⟨rfl, by decide +kernel⟩
  have apart := isolated { twoTasks.2.manager with files := spool ["b"] }
  refine ⟨same, ?_, ?_, ?_, ?_⟩
  · rw [(alike _ _ same).rest]
    decide +kernel
  · rw [apart.info "b" (by decide)]
    decide +kernel
  · exact (apart.slot "b" (by decide)).mpr (by decide +kernel)
  · exact (apart.files ["tmp", "flow-tasks", "b.jsonl"] (by decide +kernel)).trans (by decide +kernel)

end Manager

end TaskFlow
