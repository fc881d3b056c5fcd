import TaskFlow.Proofs.Manager.Endings
import TaskFlow.Proofs.Worker.Artifact

namespace TaskFlow

namespace Manager

variable {config : Config} {es : List Event} {s : System} {m : Manager} {g g' : Progress}
  {role : Role} {id : String} {t : Table} {bytes : Nat}

theorem loadArtifact_of_read (h : m.files.read (m.artifactPath id) = .ok t.toJsonl) (tidy : t.Tidy)
    (legible : ∀ row ∈ t.rows, row.Legible) :
    m.loadArtifact id = .ok (t, t.toJsonl.length) := by
  refine bind_eq_ok.mpr ⟨t, FileSystem.readTable_of_read h tidy legible, ?_⟩
  rw [h]
  rfl

/-- Whenever the artifact of a task is loaded, its file can be read as it is here. -/
def Finds (id : String) (file : Except FileError Text.Bytes) (es : List Event) : Prop :=
  ∀ e ∈ es, e.action = .load id →
    e.before.manager.files.read (e.before.manager.artifactPath id) = file

theorem eq_of_mem_loads {file : Except FileError Text.Bytes}
    {loaded r : Except StorageError (Table × Nat)} (finds : Finds id file es)
    (h : ∀ m : Manager, m.files.read (m.artifactPath id) = file → m.loadArtifact id = loaded)
    (mem : r ∈ loads id es) : r = loaded := by
  obtain ⟨e, he, answered⟩ := List.mem_filterMap.mp mem
  unfold Event.load? at answered
  split at answered
  · next key action =>
    split at answered
    · next same =>
      cases answered
      exact h _ (finds e he (same ▸ action))
    · cases answered
  · cases answered

theorem Progress.Moves.of_load {b : (Action.load id).Answer}
    (moves : g.Moves role (.load id) b g') : ∃ o, g.supervision id = some (o, .loading) := by
  cases moves with
  | free _ free => exact free.elim
  | submission _ moves => cases moves
  | supervision hq moves => cases moves <;> exact ⟨_, hq⟩
  | shutdown _ moves => cases moves

theorem Tracked.loads_of_cached (h : Tracked config es s g) {e : CacheEntry}
    (cached : s.manager.cache.entries.get? id = some e) :
    loads id es = [.ok (e.table, e.bytes)] := by
  induction h generalizing e with
  | start started =>
    obtain ⟨files, rfl⟩ := start_ok started
    cases cached
  | call _ _ _ _ ih => exact ih cached
  | @act es m before after role action rest g g' tracked moves _ ih =>
    by_cases stored : ∃ table size, action = .store id table size
    · obtain ⟨table, size, rfl⟩ := stored
      obtain ⟨o, hq, -⟩ := moves.of_store
      have story := tracked.story id
      obtain ⟨rfl, rfl⟩ := Cache.alike_of_put cached (story.uncached hq fun h => h)
      have known := story.known
      simp only [Progress.Knows, hq] at known
      exact (loads_of_ne (by simp)).trans known.2
    · simp only [not_exists] at stored
      obtain ⟨-, old, found, rows, size⟩ := alike_of_apply cached stored
      have unread : action ≠ .load id := by
        rintro rfl
        obtain ⟨o, hq⟩ := moves.of_load
        have uncached : m.cache.entries.has id = false :=
          (tracked.story id).uncached hq fun h => h
        rw [Store.has, found] at uncached
        cases uncached
      rw [loads_of_ne unread, ih found, rows, size]
  | elapse _ _ ih => exact ih cached
  | write _ _ ih => exact ih cached

theorem Tracked.loads_of_completed (h : Tracked config es s g) {info : TaskInfo}
    (known : s.manager.registry.get? id = some info) (completed : info.status = .completed) :
    ∃ table size, loads id es = [.ok (table, size)] ∧
      info.resultRef = some ⟨id, table.length, size⟩ := by
  obtain ⟨-, o, -, ⟨-, reference, told, -, table, size, read, rfl⟩ | ⟨failed, -⟩⟩ :=
    h.settled known (by rw [completed]; rfl) (by rw [completed]; nofun)
  · exact ⟨table, size, read, told⟩
  · cases completed.symm.trans failed

/-- When a worker succeeded and its artifact can be read, its task completes unless it is
canceled. -/
theorem Tracked.completed_of_left (h : Tracked config es s g) {course : Course}
    (left : ⟨.supervision id course, .done ()⟩ ∈ s.threads) {path : String} {rows size : Nat}
    (succeeded : course.outcome = .succeeded path rows size)
    (readable : ∀ e, loads id es ≠ [.error e]) {info : TaskInfo}
    (known : s.manager.registry.get? id = some info) :
    info.status = .canceled ∨ info.status = .completed := by
  obtain ⟨q, hq, rfl⟩ := h.describes.at_place _ left
  obtain ⟨u, hu, rfl⟩ := Option.map_eq_some_iff.mp known
  refine ((h.story id).allowed u hu).imp_right fun allowed => ?_
  simp only [Progress.Allows, hq] at allowed
  obtain ⟨-, ⟨completed, -⟩ | ⟨-, failure, -, because⟩⟩ := allowed
  · exact completed
  · rw [succeeded] at because
    obtain ⟨e, unreadable, -⟩ := because
    exact absurd unreadable (readable e)

/-- A manager has nothing for a task but one table: once the task has completed its result tells of
that table, and whoever fetches a result gets it. -/
structure Serves (m : Manager) (reference : ResultRef) (t : Table) : Prop where
  documented : ∀ info, m.registry.get? reference.key = some info → info.status = .completed →
    info.resultRef = some reference
  fetched : ∀ u, (m.cache.get reference.key).2 = .ok u → u = t

theorem serves_of_loads (h : Run config es s)
    (loaded : ∀ r ∈ loads id es, r = .ok (t, bytes)) :
    s.manager.Serves ⟨id, t.length, bytes⟩ t := by
  obtain ⟨g, tracked⟩ := h.tracked
  constructor
  · intro info known completed
    obtain ⟨table, size, read, told⟩ := tracked.loads_of_completed known completed
    have same := loaded _ (by rw [read]; exact List.mem_singleton_self _)
    cases same
    exact told
  · intro u fetched
    obtain ⟨e, cached, rfl⟩ := Cache.found_of_get fetched
    have same := loaded _ (by
      rw [tracked.loads_of_cached cached]
      exact List.mem_singleton_self _)
    cases same
    rfl

/-- What every manager makes of an artifact and of the counts that were reported of it: it loads the
table, serves it, and completes the task. -/
structure Delivers (file : Except FileError Text.Bytes) (out : JobOutput) (t : Table) : Prop where
  loads : ∀ (m : Manager) (id : String), m.files.read (m.artifactPath id) = file →
    m.loadArtifact id = .ok (t, out.bytes)
  serves : ∀ (config : Config) (es : List Event) (s : System) (id : String), Run config es s →
    Finds id file es → s.manager.Serves ⟨id, out.rows, out.bytes⟩ t
  completes : ∀ (config : Config) (es : List Event) (s : System) (id : String) (course : Course)
    (path : String) (info : TaskInfo), Run config es s → Finds id file es →
    ⟨.supervision id course, .done ()⟩ ∈ s.threads →
    course.outcome = .succeeded path out.rows out.bytes →
    s.manager.registry.get? id = some info →
      info.status = .canceled ∨ info.status = .completed

theorem delivers_of_read {file : Except FileError Text.Bytes} (read : file = .ok t.toJsonl)
    (tidy : t.Tidy) (legible : ∀ row ∈ t.rows, row.Legible) :
    Delivers file ⟨t.length, t.toJsonl.length⟩ t := by
  have loads (m : Manager) (id : String) (seen : m.files.read (m.artifactPath id) = file) :
      m.loadArtifact id = .ok (t, t.toJsonl.length) :=
    loadArtifact_of_read (seen.trans read) tidy legible
  have loaded {id : String} {es : List Event} (finds : Finds id file es) :
      ∀ r ∈ Manager.loads id es, r = .ok (t, t.toJsonl.length) :=
    fun r mem => eq_of_mem_loads finds (fun m => loads m id) mem
  refine ⟨loads, fun config es s id run finds => serves_of_loads run (loaded finds), ?_⟩
  intro config es s id course path info run finds left succeeded known
  obtain ⟨g, tracked⟩ := run.tracked
  refine tracked.completed_of_left left succeeded (fun e failed => ?_) known
  have same := loaded finds (.error e) (by rw [failed]; exact List.mem_singleton_self _)
  cases same

end Manager

/-- A job that ends well leaves its table in its artifact, and every manager that finds it there
serves exactly that table. -/
theorem Job.served_as_computed :
    (∀ (input : Text.Bytes) (a : Assignment), Worker.assignment input = .ok a →
      a.job.Tidy Json.maxDepth) ∧
    ∀ (j : Job) (path : String) (c : Conditions) (s s' : Session) (out : JobOutput),
      j.Tidy Json.maxDepth → j.run path c s = (.ok out, s') →
      ∃ t s₁, (Run.table j).exec c s = (.ok t, s₁) ∧ t.length = out.rows ∧
        (j.Countable c s → (∀ row ∈ t.rows, row.Legible) →
          Manager.Delivers (s'.files.read path) out t) := by
  refine ⟨fun _ _ => Worker.tidy_of_assignment, fun j path c s s' out tidy ran => ?_⟩
  have ended : Run.Ended j path c s (.ok out, s') := ran ▸ Run.job_ended j path c s
  cases ended with
  | @written t s₁ files bytes made free wrote =>
    refine ⟨t, s₁, made, rfl, fun countable legible => ?_⟩
    obtain ⟨read, rfl⟩ := FileSystem.writeJsonl_eq_ok wrote
    exact Manager.delivers_of_read read (Run.tidy_table tidy countable made) legible

def oneNumber : Job := .execute [.rows [.ofNat 1]]

/-- Whether the artifact of the task is what the script leaves, if an event loads it. -/
def findsOne (e : Manager.Event) : Bool :=
  match e.action with
  | .load id => e.before.manager.files.read (e.before.manager.artifactPath id) == .ok [49, 10]
  | _ => true

/-- The row of the script is the result of the task whose worker succeeded. -/
theorem oneNumber_served : ∃ t s',
    oneNumber.run "/tmp/flow-tasks/a.jsonl" {} { files := {} } = (.ok ⟨1, 2⟩, s') ∧
    (∀ row ∈ t.rows, row.Legible) ∧ Manager.succeeded.2.manager.Serves ⟨"a", 1, 2⟩ t ∧
    ∃ info, Manager.succeeded.2.manager.registry.get? "a" = some info ∧
      info.status = .completed ∧ info.resultRef = some ⟨"a", 1, 2⟩ := by
  let artifact := "/tmp/flow-tasks/a.jsonl"
  have returned : (oneNumber.run artifact {} { files := {} }).1 = .ok ⟨1, 2⟩ := by decide +kernel
  have left : (oneNumber.run artifact {} { files := {} }).2.files.read artifact =
      .ok [49, 10] := by decide +kernel
  rcases ran : oneNumber.run artifact {} { files := {} } with ⟨result, s'⟩
  rw [ran] at returned left
  obtain rfl : result = .ok ⟨1, 2⟩ := returned
  have one : (Number.int 1).Spelled := by
    unfold Number.Spelled
    decide
  have tidy : oneNumber.Tidy Json.maxDepth :=
    List.forall_mem_singleton.mpr (List.forall_mem_singleton.mpr (.num one))
  obtain ⟨t, s₁, made, -, delivers⟩ := Job.served_as_computed.2 oneNumber _ _ _ s' _ tidy ran
  obtain rfl : Table.ofRows [.ofNat 1] = t := by
    have script : ((Run.table oneNumber).exec {} { files := {} }).1 =
        .ok (Table.ofRows [.ofNat 1]) := rfl
    rw [made] at script
    exact (Except.ok.inj script).symm
  have legible : ∀ row ∈ [Json.ofNat 1], row.Legible :=
    List.forall_mem_singleton.mpr (List.forall_mem_nil _)
  have delivers := delivers trivial legible
  have finds : Manager.Finds "a" (s'.files.read artifact) Manager.succeeded.1 := by
    have all : Manager.succeeded.1.all findsOne = true := by decide +kernel
    intro e he action
    have found := List.all_eq_true.mp all e he
    rw [findsOne, action] at found
    exact (beq_iff_eq.mp found).trans left.symm
  have finished : ⟨.supervision "a" Manager.success, .done ()⟩ ∈ Manager.succeeded.2.threads :=
    .tail _ (.head _)
  have serves := delivers.serves _ _ _ "a" Manager.run_succeeded finds
  obtain ⟨info, known, active⟩ : ∃ info,
      Manager.succeeded.2.manager.registry.get? "a" = some info ∧ info.status ≠ .canceled :=
    ⟨_, rfl, nofun⟩
  have completed := (delivers.completes _ _ _ "a" _ _ info Manager.run_succeeded finds finished rfl
    known).resolve_left active
  exact ⟨_, s', rfl, legible, serves, info, known, completed,
    serves.documented info known completed⟩

end TaskFlow
