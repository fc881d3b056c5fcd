import TaskFlow.Proofs.Manager.Deletions

namespace TaskFlow.Manager

variable {config : Config} {es : List Event} {s : System} {m : Manager} {g g' : Progress}
  {role : Role} {action : Action} {id : String} {e : CacheEntry} {reference : ResultRef}

/-- Whether a record tells of a result: its task has completed with it. -/
def Documents (r : Registry) (reference : ResultRef) : Prop :=
  ∃ t, r.get? reference.key = some t ∧ t.status = .completed ∧ t.resultRef = some reference

def Holds (c : Cache) (reference : ResultRef) : Prop :=
  ∃ e, c.entries.get? reference.key = some e ∧ e.reference reference.key = reference

def Event.Sweeps (id : String) (e : Event) : Prop :=
  (∃ ttl, e.role = .sweep ttl) ∧ e.action = .forget id

/-- A thread that has stored the result of a task, and is about to complete it or to drop the
result. -/
def Thread.Handles (id : String) (t : Thread) : Prop :=
  t.rest.next? = some (.evict id) ∨ ∃ reference, t.rest.next? = some (.complete id reference)

def Unspoiled (id : String) (es : List Event) : Prop :=
  ∀ e ∈ es, ∀ t, e.after.registry.get? id = some t → t.status ≠ .canceled ∧ t.status ≠ .failed

def Deleted (id : String) (ts : List Thread) : Prop := ⟨.deletion id, .done (.ok ())⟩ ∈ ts

theorem Unspoiled.concat {ev : Event} (h : Unspoiled id es)
    (fine : ∀ t, ev.after.registry.tasks.get? id = some t →
      t.info.status ≠ .canceled ∧ t.info.status ≠ .failed) : Unspoiled id (es ++ [ev]) := by
  intro e he t ht
  rcases List.mem_append.mp he with he | he
  · exact h e he t ht
  · rw [List.mem_singleton.mp he] at ht
    obtain ⟨u, hu, rfl⟩ := Option.map_eq_some_iff.mp ht
    exact fine u hu

theorem Tracked.absent_of_unborn (h : Tracked config es s g) (unborn : g.Unborn id) :
    ∀ e ∈ es, e.after.registry.tasks.get? id = none := by
  induction h with
  | start => simp
  | call role _ _ lacks ih => exact ih (Progress.unborn_of_enter lacks unborn)
  | @act es m before after role action rest g g' tracked moves _ ih =>
    obtain ⟨unborn, hr⟩ := moves.unborn unborn
    have absent : m.registry.tasks.get? id = none := ((tracked.story id).unborn unborn).1
    intro e he
    rcases List.mem_append.mp he with he | he
    · exact ih unborn e he
    · rw [List.mem_singleton.mp he]
      exact absent_apply absent hr
  | elapse _ _ ih => exact ih unborn
  | write _ _ ih => exact ih unborn

theorem Tracked.unspoiled (h : Tracked config es s g) {t : TaskRecord}
    (known : s.manager.registry.tasks.get? id = some t)
    (fine : t.info.status ≠ .canceled ∧ t.info.status ≠ .failed) : Unspoiled id es := by
  induction h generalizing t with
  | start => simp [Unspoiled]
  | call _ _ _ _ ih => exact ih known fine
  | @act es m before after role action rest g g' tracked moves _ ih =>
    have earlier : Unspoiled id es := by
      by_cases hr : ∃ kind, action = .record id kind
      · obtain ⟨kind, rfl⟩ := hr
        intro e he u hu
        rw [Registry.get?_eq, tracked.absent_of_unborn moves.unborn_of_record e he] at hu
        cases hu
      have hr : ∀ kind, action ≠ .record id kind := not_exists.mp hr
      cases ht : m.registry.tasks.get? id with
      | none => cases (absent_apply ht hr).symm.trans known
      | some u =>
        refine ih ht ?_
        cases ended : u.info.status.isTerminal with
        | true =>
          have inactive := Registry.inactive_of_some ht ended
          rcases record_apply_of_inactive inactive hr with same | gone
          · cases (same.trans ht).symm.trans known
            exact fine
          · cases gone.symm.trans known
        | false => constructor <;> (intro hs; rw [hs] at ended; cases ended)
    refine earlier.concat fun u hu => ?_
    cases hu.symm.trans known
    exact fine
  | elapse _ _ ih => exact ih known fine
  | write _ _ ih => exact ih known fine

/-- The supervision of the task has stored a result, and is about to complete its task or to drop
the result again. -/
def Committing (g : Progress) (reference : ResultRef) : Prop :=
  ∃ o, g.supervision reference.key = some (o, .completing reference) ∨
    g.supervision reference.key = some (o, .discarding)

/-- Whether a result that is not documented any more is about to be dropped, or was left behind by
a sweep. -/
def Left (es : List Event) (r : Registry) (ts : List Thread) (reference : ResultRef) : Prop :=
  r.tasks.get? reference.key = none ∧
    ((∃ e ∈ es, e.Sweeps reference.key ∧ Documents e.before.manager.registry reference) ∨
      ∃ t ∈ ts, t.rest.next? = some (.evict reference.key))

/-- What holds of a result that its supervision has handed over. -/
structure Kept (es : List Event) (r : Registry) (ts : List Thread) (reference : ResultRef) :
    Prop where
  unspoiled : Unspoiled reference.key es
  undeleted : ¬Deleted reference.key ts
  accounted : Documents r reference ∨ Left es r ts reference

theorem Tracked.alive_of_holds (h : Tracked config es s g)
    (holds : Holds s.manager.cache reference) :
    ∃ q, g.submission reference.key = some q ∧ q.phase = .alive := by
  obtain ⟨e, cached, -⟩ := holds
  obtain ⟨o, w, hw, -⟩ := (h.story reference.key).cached (Store.has_iff.mpr ⟨e, cached⟩)
  exact (h.accounted reference.key).supervised o w hw

theorem Committing.act {b : action.Answer} (h : Committing g reference)
    (hb : (action.apply m).2 = b) (moves : g.Moves role action b g')
    (he : action ≠ .evict reference.key) :
    Committing g' reference ∨ (∃ c, role = .supervision reference.key c) ∧
      action = .complete reference.key reference ∧
      ∃ s, (m.registry.complete reference.key reference m.now).2 = .ok s := by
  obtain ⟨o, hq⟩ := h
  cases moves with
  | free => exact .inl ⟨o, hq⟩
  | submission => exact .inl ⟨o, hq⟩
  | shutdown => exact .inl ⟨o, hq⟩
  | @supervision key c _ _ q q' hq' moves =>
    by_cases hk : reference.key = key
    · subst hk
      rcases hq with hq | hq <;> cases hq'.symm.trans hq
      · cases moves with
        | complete reference s => exact .inr ⟨⟨c, rfl⟩, rfl, s, hb⟩
        | lose reference e => exact .inl ⟨c.outcome, .inr (by simp)⟩
      · cases moves
        exact absurd rfl he
    · exact .inl ⟨o, by simpa [hk] using hq⟩

section Act

variable {before after : List Thread} {rest : action.Answer → Op role.Reply}

theorem Tracked.deleted_of_act
    (h : Tracked config es ⟨m, before ++ ⟨role, .take action rest⟩ :: after⟩ g)
    {b : action.Answer} (he : action ≠ .evict id)
    (deleted : Deleted id (before ++ ⟨role, rest b⟩ :: after)) :
    Deleted id (before ++ ⟨role, .take action rest⟩ :: after) := by
  rcases mem_middle.mp deleted with same | mem
  · -- the deletion itself takes the action: then it is the last one
    have mayForget := h.mayForget ⟨role, .take action rest⟩ (by simp)
    obtain ⟨hr, finished⟩ := Thread.mk.inj same
    subst hr
    exact absurd (mayForget.evict (eq_of_heq finished).symm) he
  · exact mem_middle.mpr (.inr mem)

theorem Tracked.kept_of_complete
    (h : Tracked config es ⟨m, before ++ ⟨role, .take action rest⟩ :: after⟩ g) {s : Status}
    (complete : action = .complete reference.key reference)
    (ok : (m.registry.complete reference.key reference m.now).2 = .ok s) {b : action.Answer} :
    Kept (es ++ [⟨⟨m, before ++ ⟨role, .take action rest⟩ :: after⟩, role, action⟩])
      (action.apply m).1.registry (before ++ ⟨role, rest b⟩ :: after) reference := by
  obtain ⟨t, known, can, -, completed⟩ := Registry.get?_transition_of_ok ok
  have found : (action.apply m).1.registry.tasks.get? reference.key = some (Registry.moved .completed
      m.now (fun t => { t with progress := Binary.ofNat 1, resultRef := some reference }) t) := by
    rw [complete]
    exact completed
  have fine : t.info.status ≠ .canceled ∧ t.info.status ≠ .failed := by
    constructor <;> (intro hs; rw [hs] at can; cases can)
  refine ⟨?_, fun deleted => ?_, .inl ⟨_, by rw [Registry.get?_eq, found]; rfl, rfl, rfl⟩⟩
  · refine (h.unspoiled known fine).concat fun u hu => ?_
    cases found.symm.trans hu
    simp [Registry.moved, Registry.enter]
  · -- a deleted task would have no record to complete
    have deleted := h.deleted_of_act (by simp [complete]) deleted
    cases (h.absent_of_deleted deleted).symm.trans known

/-- A record that tells of a result stays, or is forgotten by a sweep or by a deletion that drops
the result next. -/
theorem Tracked.documents_act
    (h : Tracked config es ⟨m, before ++ ⟨role, .take action rest⟩ :: after⟩ g)
    (moves : g.Moves role action (action.apply m).2 g') (holds : Holds m.cache reference)
    (documents : Documents m.registry reference)
    (record : (action.apply m).1.registry.tasks.get? reference.key =
        m.registry.tasks.get? reference.key ∨
      (action.apply m).1.registry.tasks.get? reference.key = none) :
    Documents (action.apply m).1.registry reference ∨
      Left (es ++ [⟨⟨m, before ++ ⟨role, .take action rest⟩ :: after⟩, role, action⟩])
        (action.apply m).1.registry (before ++ ⟨role, rest (action.apply m).2⟩ :: after)
        reference := by
  have known := documents
  obtain ⟨t, ht, completed⟩ := known
  rcases record with same | gone
  · exact .inl ⟨t, by rwa [Registry.get?_eq, same], completed⟩
  right
  obtain ⟨u, hu, -⟩ := Option.map_eq_some_iff.mp ht
  obtain rfl := forget_of_gone hu gone
  have mayForget := h.mayForget ⟨role, .take (.forget reference.key) rest⟩ (by simp)
  rcases mayForget.forget moves with next | sweep | ⟨reason, withdrawing⟩
  · exact ⟨gone, .inr ⟨⟨role, rest _⟩, by simp, next⟩⟩
  · exact ⟨gone, .inl ⟨_, List.mem_concat_self, ⟨sweep, rfl⟩, documents⟩⟩
  · obtain ⟨q, hq, alive⟩ := h.alive_of_holds holds
    cases withdrawing.symm.trans hq
    cases alive

theorem Left.act {b : action.Answer} {ev : Event}
    (h : Left es m.registry (before ++ ⟨role, .take action rest⟩ :: after) reference)
    (hr : ∀ kind, action ≠ .record reference.key kind) (he : action ≠ .evict reference.key) :
    Left (es ++ [ev]) (action.apply m).1.registry (before ++ ⟨role, rest b⟩ :: after)
      reference := by
  obtain ⟨absent, ⟨e, he, swept⟩ | ⟨t, ht, next⟩⟩ := h
  · exact ⟨absent_apply absent hr, .inl ⟨e, List.mem_append_left _ he, swept⟩⟩
  · refine ⟨absent_apply absent hr, .inr ⟨t, ?_, next⟩⟩
    rcases mem_middle.mp ht with rfl | ht
    · exact absurd (Option.some.inj next) he
    · exact mem_middle.mpr (.inr ht)

theorem Tracked.kept_act
    (h : Tracked config es ⟨m, before ++ ⟨role, .take action rest⟩ :: after⟩ g)
    (moves : g.Moves role action (action.apply m).2 g') (holds : Holds m.cache reference)
    (he : action ≠ .evict reference.key)
    (kept : Kept es m.registry (before ++ ⟨role, .take action rest⟩ :: after) reference) :
    Kept (es ++ [⟨⟨m, before ++ ⟨role, .take action rest⟩ :: after⟩, role, action⟩])
      (action.apply m).1.registry (before ++ ⟨role, rest (action.apply m).2⟩ :: after)
      reference := by
  have hr (kind : JobKind) : action ≠ .record reference.key kind := by
    rintro rfl
    obtain ⟨q, hq, alive⟩ := h.alive_of_holds holds
    cases (moves.unborn_of_record q hq).symm.trans alive
  have ended : ∀ t, m.registry.tasks.get? reference.key = some t → t.info.status = .completed := by
    intro t known
    rcases kept.accounted with ⟨u, hu, completed, -⟩ | ⟨absent, -⟩
    · rw [Registry.get?_eq, known] at hu
      cases hu
      exact completed
    · cases absent.symm.trans known
  have record : (action.apply m).1.registry.tasks.get? reference.key =
        m.registry.tasks.get? reference.key ∨
      (action.apply m).1.registry.tasks.get? reference.key = none :=
    record_apply_of_inactive (fun t known => by rw [ended t known]; rfl) hr
  refine ⟨kept.unspoiled.concat fun u hu => ?_,
    fun deleted => kept.undeleted (h.deleted_of_act he deleted), ?_⟩
  · rcases record with same | gone
    · simp [ended u (same.symm.trans hu)]
    · cases gone.symm.trans hu
  · rcases kept.accounted with documents | left
    · exact h.documents_act moves holds documents record
    · exact .inr (left.act hr he)

end Act

theorem Committing.call (h : Committing g reference) (lacks : g.Lacks role) :
    Committing (g.enter role) reference := by
  obtain ⟨o, hq⟩ := h
  cases role with
  | supervision key c =>
    have none : g.supervision key = none := lacks
    have hk : reference.key ≠ key := by
      rintro rfl
      rcases hq with hq | hq <;> cases none.symm.trans hq
    exact ⟨o, by simpa [Progress.enter, hk] using hq⟩
  | _ => exact ⟨o, hq⟩

theorem Kept.call {r : Registry} {ts : List Thread} (h : Kept es r ts reference) :
    Kept es r (ts ++ [.start role]) reference := by
  refine ⟨h.unspoiled, fun deleted => ?_, h.accounted.imp_right ?_⟩
  · rcases List.mem_append.mp deleted with mem | mem
    · exact h.undeleted mem
    · obtain ⟨hr, finished⟩ := Thread.mk.inj (List.mem_singleton.mp mem)
      subst hr
      cases finished
  · rintro ⟨absent, swept | ⟨t, ht, next⟩⟩
    · exact ⟨absent, .inl swept⟩
    · exact ⟨absent, .inr ⟨t, List.mem_append_left _ ht, next⟩⟩

theorem Tracked.committing_or_kept (h : Tracked config es s g)
    (holds : Holds s.manager.cache reference) :
    Committing g reference ∨ Kept es s.manager.registry s.threads reference := by
  -- the two stores disagree between any two actions of a commit or a deletion, so the invariant
  -- says who is in between
  induction h with
  | start started =>
    obtain ⟨files, rfl⟩ := start_ok started
    obtain ⟨e, cached, -⟩ := holds
    cases cached
  | call role _ _ lacks ih =>
    rcases ih holds with committing | kept
    · exact .inl (committing.call lacks)
    · exact .inr kept.call
  | @act es m before after role action rest g g' tracked moves _ ih =>
    by_cases hs : ∃ table bytes, action = .store reference.key table bytes
    · obtain ⟨table, bytes, rfl⟩ := hs
      obtain ⟨o, hq, completing⟩ := moves.of_store
      have uncached := (tracked.story reference.key).uncached hq fun h => h
      obtain ⟨e, cached, same⟩ := holds
      have stored := (Cache.reference_of_put cached uncached).symm.trans same
      refine .inl ⟨o, .inl (completing reference ?_)⟩
      rw [← stored]
      exact Cache.put_snd.trans (by simp [uncached])
    · simp only [not_exists] at hs
      obtain ⟨e, cached, same⟩ := holds
      obtain ⟨he, e, cached, alike⟩ := alike_of_apply cached hs
      have holds : Holds m.cache reference := ⟨e, cached, (alike.reference _).trans same⟩
      rcases ih holds with committing | kept
      · rcases committing.act rfl moves he with committing | ⟨-, complete, s, ok⟩
        · exact .inl committing
        · exact .inr (tracked.kept_of_complete complete ok)
      · exact .inr (tracked.kept_act moves holds he kept)
  | elapse _ _ ih => exact ih holds
  | write _ _ ih => exact ih holds

theorem Tracked.handles_of_committing (h : Tracked config es s g)
    (committing : Committing g reference) : ∃ t ∈ s.threads, t.Handles reference.key := by
  obtain ⟨o, hq⟩ := committing
  have next {c : Course} {p : Op Unit} {q : Supervising}
      (hq : q = .completing reference ∨ q = .discarding)
      (follows : p.Follows (Supervising.Moves reference.key c.outcome) (fun q _ => q = .left) q) :
      p.next? = some (.evict reference.key) ∨
        ∃ result, p.next? = some (.complete reference.key result) := by
    cases p with
    | done a =>
      have left : q = .left := follows
      rcases hq with rfl | rfl <;> cases left
    | take act rest =>
      obtain ⟨b⟩ : Nonempty act.Answer := inferInstance
      obtain ⟨q', moves, -⟩ := follows b
      rcases hq with rfl | rfl <;> cases moves
      · exact .inr ⟨_, rfl⟩
      · exact .inr ⟨_, rfl⟩
      · exact .inl rfl
  rcases hq with hq | hq
  · obtain ⟨c, rest, mem, follows⟩ := h.describes.supervision_thread hq
    exact ⟨_, mem, next (.inl rfl) follows⟩
  · obtain ⟨c, rest, mem, follows⟩ := h.describes.supervision_thread hq
    exact ⟨_, mem, next (.inr rfl) follows⟩

/-- A task with a table in the cache has completed with just that table, or had until a sweep,
unless a thread is between cache and registry. -/
theorem cached_result_documented (h : Run config es s)
    (cached : s.manager.cache.entries.get? id = some e)
    (idle : ∀ t ∈ s.threads, ¬t.Handles id) :
    (Documents s.manager.registry ⟨id, e.table.length, e.bytes⟩ ∨
      s.manager.registry.get? id = none ∧ ∃ ev ∈ es, ev.Sweeps id ∧
        Documents ev.before.manager.registry ⟨id, e.table.length, e.bytes⟩) ∧
    Unspoiled id es ∧ ¬Deleted id s.threads := by
  obtain ⟨g, tracked⟩ := h.tracked
  have holds : Holds s.manager.cache ⟨id, e.table.length, e.bytes⟩ := ⟨e, cached, rfl⟩
  -- a stored table is being committed, or is kept with its record; nobody is left who commits
  rcases tracked.committing_or_kept holds with committing | kept
  · obtain ⟨t, ht, handles⟩ := tracked.handles_of_committing committing
    exact absurd handles (idle t ht)
  · refine ⟨kept.accounted.imp_right ?_, kept.unspoiled, kept.undeleted⟩
    rintro ⟨absent, swept | ⟨t, ht, next⟩⟩
    · exact ⟨by rw [Registry.get?_eq, absent]; rfl, swept⟩
    · exact absurd (.inl next) (idle t ht)

def swept : List Event × System :=
  let later : Manager := { succeeded.2.manager with now := ⟨1, 0⟩ }
  let sweep := ((⟨later, succeeded.2.threads⟩ : System).call (.sweep 0)).follow [2, 2]
  (succeeded.1 ++ sweep.1, sweep.2)

theorem run_swept : Run oneSlot swept.1 swept.2 := by
  refine ((run_succeeded.elapse ⟨1, 0⟩).call (.sweep 0) ?_).follow [2, 2]
  exact System.admits_of_roles [small "a", .supervision "a" success] rfl
    (by simp [Role.Beside, small]) fun _ _ h => nomatch h

/-- The result stays in the cache; the record that the sweep removed told of it. -/
theorem swept_leaves_result : ∃ e, swept.2.manager.cache.entries.get? "a" = some e ∧
    swept.2.manager.registry.get? "a" = none ∧ ∃ ev ∈ swept.1, ev.Sweeps "a" ∧
      Documents ev.before.manager.registry ⟨"a", e.table.length, e.bytes⟩ := by
  have stored : (swept.2.manager.cache.entries.get? "a").isSome = true := rfl
  obtain ⟨e, cached⟩ := Option.isSome_iff_exists.mp stored
  have gone : swept.2.manager.registry.get? "a" = none := rfl
  have finished : swept.2.threads.all (·.rest.next?.isNone) = true := rfl
  have idle : ∀ t ∈ swept.2.threads, ¬t.Handles "a" := by
    intro t ht
    have ended : t.rest.next? = none := by simpa using List.all_eq_true.mp finished t ht
    simp [Thread.Handles, ended]
  obtain ⟨⟨t, ht, -⟩ | left, -⟩ := cached_result_documented run_swept cached idle
  · cases gone.symm.trans ht
  · exact ⟨e, cached, left⟩

end TaskFlow.Manager
