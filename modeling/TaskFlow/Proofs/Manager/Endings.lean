import TaskFlow.Proofs.Manager.Slots

namespace TaskFlow.Manager

variable {config : Config} {es : List Event} {s : System} {m : Manager} {g g' : Progress}
  {role : Role} {action : Action} {id : String} {e : Event} {t u : TaskRecord} {o : Outcome}

/-- Whether a cancellation of a task wins in an event: the task was active, and is canceled. -/
def Event.Cancels (id : String) (e : Event) : Prop :=
  e.action = .cancel id ∧ ∃ before,
    (e.before.manager.registry.cancel id e.before.manager.now).2 = .ok (.canceled before)

def Event.load? (id : String) (e : Event) : Option (Except StorageError (Table × Nat)) :=
  match e.action with
  | .load key => if key = id then some (e.before.manager.loadArtifact id) else none
  | _ => none

def loads (id : String) (es : List Event) : List (Except StorageError (Table × Nat)) :=
  es.filterMap (·.load? id)

/-- A task that completes for what was read of its artifact: its result is that table. -/
def CompletesWith (id : String) (loaded : List (Except StorageError (Table × Nat))) (o : Outcome)
    (reference : ResultRef) : Prop :=
  (∃ path rows bytes, o = .succeeded path rows bytes) ∧
    ∃ table size, loaded = [.ok (table, size)] ∧ reference = ⟨id, table.length, size⟩

/-- A task that fails for what became of its worker, or for an artifact that cannot be read. -/
def FailsWith (loaded : List (Except StorageError (Table × Nat))) :
    Outcome → TaskFailure → Prop
  | .succeeded .., failure => ∃ e, loaded = [.error e] ∧
    failure = .application ("artefacto ilegible: " ++ e.text)
  | .failed e, failure => failure = .application e
  | .crashed d, failure => failure = .workerCrashed d
  | .stopped _, _ => False

/-- A task that is running and has noted when it began. -/
def Underway (t : TaskInfo) : Prop := t.status = .running ∧ t.startedAt.isSome = true

def Unended (t : TaskInfo) : Prop := t.status = .queued ∨ Underway t

def Settled (id : String) (loaded : List (Except StorageError (Table × Nat))) (o : Outcome)
    (t : TaskInfo) : Prop :=
  t.startedAt.isSome = true ∧
    (t.status = .completed ∧ (∃ reference, t.resultRef = some reference ∧
      CompletesWith id loaded o reference) ∨
    t.status = .failed ∧ ∃ failure, t.error = some failure ∧ FailsWith loaded o failure)

/-- What may be known of a task that was not canceled, by the place of its supervision. -/
def Supervising.Allows (id : String) (loaded : List (Except StorageError (Table × Nat)))
    (o : Outcome) (t : TaskInfo) : Supervising → Prop
  | .watching | .starting | .canceling => Unended t
  | .loading | .storing .. | .completing _ | .failing _ => Underway t
  | .discarding => False
  | .clearing | .releasing | .leaving | .left => Settled id loaded o t

def Supervising.Knows (id : String) (loaded : List (Except StorageError (Table × Nat)))
    (o : Outcome) : Supervising → Prop
  | .watching | .starting => loaded = []
  | .loading => (∃ path rows bytes, o = .succeeded path rows bytes) ∧ loaded = []
  | .storing table size =>
    (∃ path rows bytes, o = .succeeded path rows bytes) ∧ loaded = [.ok (table, size)]
  | .completing reference => CompletesWith id loaded o reference
  | .failing failure => FailsWith loaded o failure
  | _ => True

/-- Whether a supervision may have left a table in the cache. -/
def Supervising.HasStored : Supervising → Prop
  | .completing _ | .discarding | .clearing | .releasing | .leaving | .left => True
  | _ => False

theorem loads_append : loads id (es ++ [e]) = loads id es ++ (e.load? id).toList := by
  simp only [loads, List.filterMap_append]
  cases h : e.load? id <;> simp [h]

theorem load?_of_ne (h : e.action ≠ .load id) : e.load? id = none := by
  unfold Event.load?
  split
  · next key he =>
    have : key ≠ id := fun hk => h (hk ▸ he)
    simp [this]
  · rfl

theorem loads_of_ne (h : e.action ≠ .load id) : loads id (es ++ [e]) = loads id es := by
  simp [loads_append, load?_of_ne h]

theorem info_cancel (h : e.action = .cancel id)
    (hu : e.after.registry.tasks.get? id = some u) :
    e.Cancels id ∧ u.info.status = .canceled ∨
      ¬e.Cancels id ∧ u.info.status.isTerminal = true ∧
        e.before.manager.registry.tasks.get? id = some u := by
  obtain ⟨s, role, action⟩ := e
  obtain rfl : action = .cancel id := h
  have hu : (s.manager.registry.cancel id s.manager.now).1.tasks.get? id = some u := hu
  cases ht : s.manager.registry.tasks.get? id with
  | none =>
    rw [Registry.cancel_of_absent ht, ht] at hu
    cases hu
  | some t =>
    cases active : t.info.status.isTerminal with
    | true =>
      right
      simp only [Registry.cancel_of_isTerminal ht active, ht, Option.some.injEq] at hu
      subst hu
      simp [Event.Cancels, Registry.cancel_of_isTerminal ht active, active]
    | false =>
      left
      simp only [Registry.cancel_of_active ht active, Registry.update, Store.get?_modify, if_true,
        ht, Option.map_some, Option.some.injEq] at hu
      subst hu
      exact ⟨⟨rfl, _, by rw [Registry.cancel_of_active ht active]⟩, rfl⟩

theorem canceled_apply (hr : ∀ kind, e.action ≠ .record id kind)
    (hu : e.after.registry.tasks.get? id = some u) :
    e.Cancels id ∧ u.info.status = .canceled ∨
      ¬e.Cancels id ∧ ∃ t, e.before.manager.registry.tasks.get? id = some t ∧
        (u.info.status = .canceled ↔ t.info.status = .canceled) := by
  by_cases hc : e.action = .cancel id
  · rcases info_cancel hc hu with won | ⟨lost, -, ht⟩
    · exact .inl won
    · exact .inr ⟨lost, u, ht, Iff.rfl⟩
  refine .inr ⟨fun won => hc won.1, ?_⟩
  obtain ⟨s, role, action⟩ := e
  have kept {next : Status} {change : TaskInfo → TaskInfo}
      (hu : (s.manager.registry.transition id next s.manager.now change).1.tasks.get? id = some u)
      (hn : next ≠ .canceled) (same : ∀ t, (change t).status = t.status) :
      ∃ t, s.manager.registry.tasks.get? id = some t ∧
        (u.info.status = .canceled ↔ t.info.status = .canceled) := by
    obtain ⟨t, ht, ⟨can, rfl⟩ | ⟨-, rfl⟩⟩ := Registry.get?_transition_eq_some hu
    · refine ⟨t, ht, ?_⟩
      have : t.info.status ≠ .canceled := fun h => by
        rw [Status.canBecome_of_isTerminal (by rw [h]; rfl)] at can
        cases can
      simp [Registry.moved, same, Registry.enter, hn, this]
    · exact ⟨u, ht, Iff.rfl⟩
  -- nothing else leads to that state, and nothing leads out of it
  by_cases adv : action.Advances id
  · cases action with
    | record key kind => cases adv; exact absurd rfl (hr kind)
    | markRunning key => cases adv; exact kept hu (by simp) fun _ => rfl
    | cancel key => cases adv; exact absurd rfl hc
    | complete key result => cases adv; exact kept hu (by simp) fun _ => rfl
    | fail key failure => cases adv; exact kept hu (by simp) fun _ => rfl
    | noteProgress key fraction message =>
      cases adv
      obtain ⟨t, progress, message, ht, info⟩ := Registry.get?_setProgress_eq_some hu
      exact ⟨t, ht, by rw [info]⟩
    | _ => exact adv.elim
  · obtain ⟨t, ht, info⟩ := info_apply adv hu
    exact ⟨t, ht, by rw [info]⟩

theorem info_markRunning
    (hu : ((Action.markRunning id).apply m).1.registry.tasks.get? id = some u) :
    ∃ t, m.registry.tasks.get? id = some t ∧
      (t.info.status = .queued ∧ Underway u.info ∨ t.info.status ≠ .queued ∧ u = t) := by
  obtain ⟨t, ht, ⟨can, rfl⟩ | ⟨cannot, rfl⟩⟩ := Registry.get?_transition_eq_some hu
  · refine ⟨t, ht, .inl ⟨?_, rfl, by simp [Registry.moved, Registry.enter]⟩⟩
    cases hs : t.info.status <;> rw [hs] at can <;> first | rfl | cases can
  · refine ⟨u, ht, .inr ⟨fun hs => ?_, rfl⟩⟩
    rw [hs] at cannot
    cases cannot

/-- A task under way that is to complete or to fail does so, unless it was canceled meanwhile. -/
theorem info_finish {next : Status} {change : TaskInfo → TaskInfo}
    (hn : next = .completed ∨ next = .failed)
    (h : ∀ t, m.registry.tasks.get? id = some t → t.info.status = .canceled ∨ Underway t.info)
    (hu : (m.registry.transition id next m.now change).1.tasks.get? id = some u) :
    u.info.status = .canceled ∨ ∃ t, Underway t.info ∧
      u = Registry.moved next m.now change t ∧
      (m.registry.transition id next m.now change).2 = .ok t.info.status := by
  obtain ⟨t, ht, ⟨can, rfl⟩ | ⟨cannot, rfl⟩⟩ := Registry.get?_transition_eq_some hu
  · right
    have underway : Underway t.info := (h t ht).resolve_left fun canceled => by
      rw [Status.canBecome_of_isTerminal (by rw [canceled]; rfl)] at can
      cases can
    exact ⟨t, underway, rfl, by rw [Registry.transition_of_legal ht can]⟩
  · refine .inl ((h u ht).resolve_right fun underway => ?_)
    rw [underway.1] at cannot
    obtain rfl | rfl := hn <;> cases cannot

theorem Supervising.Moves.knows {q q' : Supervising} {b : action.Answer}
    (hb : (action.apply s.manager).2 = b) (moves : q.Moves id o action b q')
    (uncached : ¬q.HasStored → s.manager.cache.entries.has id = false)
    (h : q.Knows id (loads id es) o) : q'.Knows id (loads id (es ++ [⟨s, role, action⟩])) o := by
  have same (ha : action ≠ .load id) : loads id (es ++ [⟨s, role, action⟩]) = loads id es :=
    loads_of_ne ha
  have read (ha : action = .load id) : loads id (es ++ [⟨s, role, action⟩]) =
      loads id es ++ [s.manager.loadArtifact id] := by
    subst ha
    simp [loads_append, Event.load?]
  cases moves with
  | begin r => exact (same (by simp)).trans h
  | progress fraction message b => exact (same (by simp)).trans h
  | reapEnded ended => exact (same (by simp)).trans h
  | succeed path rows bytes ho r => exact ⟨⟨path, rows, bytes, ho⟩, (same (by simp)).trans h⟩
  | fail e ho r =>
    subst ho
    rfl
  | crash d ho r =>
    subst ho
    rfl
  | load table size =>
    have hb : s.manager.loadArtifact id = .ok (table, size) := hb
    exact ⟨h.1, by rw [read rfl, h.2, hb]; rfl⟩
  | spoil e =>
    have hb : s.manager.loadArtifact id = .error e := hb
    obtain ⟨⟨path, rows, bytes, rfl⟩, none⟩ := h
    exact ⟨e, by rw [read rfl, none, hb]; rfl, rfl⟩
  | store table size reference =>
    have hb : (s.manager.cache.put id table size).2 = .ok reference := hb
    rw [Cache.put_snd, uncached fun h => h] at hb
    cases hb
    exact ⟨h.1, table, size, (same (by simp)).trans h.2, rfl⟩
  | refuse table size e =>
    -- the cache refuses a table only if it has one for the task already
    have hb : (s.manager.cache.put id table size).2 = .error e := hb
    rw [Cache.put_snd, uncached fun h => h] at hb
    cases hb
  | noteFailure failure r q hq => obtain rfl | rfl := hq <;> trivial
  | _ => trivial

theorem Supervising.Moves.allows {q q' : Supervising} {b : action.Answer}
    (hb : (action.apply s.manager).2 = b) (moves : q.Moves id o action b q')
    (knows : q.Knows id (loads id es) o)
    (h : ∀ t, s.manager.registry.tasks.get? id = some t →
      t.info.status = .canceled ∨ q.Allows id (loads id es) o t.info)
    (hu : (action.apply s.manager).1.registry.tasks.get? id = some u) :
    u.info.status = .canceled ∨ q'.Allows id (loads id (es ++ [⟨s, role, action⟩])) o u.info := by
  have same (ha : action ≠ .load id) : loads id (es ++ [⟨s, role, action⟩]) = loads id es :=
    loads_of_ne ha
  have kept (ha : ¬action.Advances id) :
      u.info.status = .canceled ∨ q.Allows id (loads id es) o u.info := by
    obtain ⟨t, ht, info⟩ := info_apply ha hu
    exact info ▸ h t ht
  have begun (ha : action = .markRunning id) (unended : ∀ t : TaskInfo,
      q.Allows id (loads id es) o t → Unended t) :
      u.info.status = .canceled ∨ Underway u.info := by
    subst ha
    obtain ⟨t, ht, ⟨-, underway⟩ | ⟨begun, rfl⟩⟩ := info_markRunning hu
    · exact .inr underway
    · exact (h u ht).imp_right fun allows => (unended _ allows).resolve_left begun
  cases moves with
  | begin r => exact (begun rfl fun _ h => h).imp_right .inr
  | progress fraction message b =>
    obtain ⟨t, progress, message, ht, info⟩ := Registry.get?_setProgress_eq_some hu
    rw [info]
    exact h t ht
  | succeed path rows bytes ho r => exact begun rfl fun _ h => h
  | fail e ho r => exact begun rfl fun _ h => h
  | crash d ho r => exact begun rfl fun _ h => h
  | complete reference before =>
    rw [same (by simp)]
    rcases info_finish (.inl rfl) h hu with canceled | ⟨t, ⟨-, started⟩, rfl, -⟩
    · exact .inl canceled
    · exact .inr ⟨started, .inl ⟨rfl, reference, rfl, knows⟩⟩
  | lose reference e =>
    -- a task under way would have completed, so this one was canceled meanwhile
    rcases info_finish (.inl rfl) h hu with canceled | ⟨t, -, -, ok⟩
    · exact .inl canceled
    · cases ok.symm.trans hb
  | noteFailure failure r q hq =>
    have settled : u.info.status = .canceled ∨ Settled id (loads id es) o u.info := by
      rcases info_finish (.inr rfl) h hu with canceled | ⟨t, ⟨-, started⟩, rfl, -⟩
      · exact .inl canceled
      · exact .inr ⟨started, .inr ⟨rfl, failure, rfl, knows⟩⟩
    rw [same (by simp)]
    obtain rfl | rfl := hq <;> exact settled
  | cancel r =>
    -- a stopped worker: its task is canceled now, or has been before
    rcases info_cancel (e := ⟨s, role, .cancel id⟩) rfl hu with ⟨-, canceled⟩ | ⟨-, ended, ht⟩
    · exact .inl canceled
    · refine (h u ht).imp_right fun unended => ?_
      obtain queued | ⟨running, -⟩ := unended
      · rw [queued] at ended
        cases ended
      · rw [running] at ended
        cases ended
  | clear => exact (same (by simp)).symm ▸ kept fun h => h
  | release b => exact (same (by simp)).symm ▸ kept fun h => h
  | leave => exact (same (by simp)).symm ▸ kept fun h => h
  | discard b => exact .inl ((kept fun h => h).resolve_right fun h => h)
  | _ => exact kept (by simp [Action.Advances])

theorem Supervising.Moves.hasStored {q q' : Supervising} {b : action.Answer}
    (moves : q.Moves id o action b q') (h : q.HasStored) : q'.HasStored := by
  cases moves with
  | noteFailure failure r q hq => obtain rfl | rfl := hq <;> trivial
  | _ => trivial

theorem Supervising.Allows.settled {q : Supervising} {info : TaskInfo}
    {loaded : List (Except StorageError (Table × Nat))} (h : q.Allows id loaded o info)
    (ended : ¬Unended info) : q.HasStored ∧ Settled id loaded o info := by
  cases q with
  | watching | starting | canceling => exact absurd h ended
  | loading | storing | completing | failing => exact absurd (.inr h) ended
  | discarding => exact h.elim
  | clearing | releasing | leaving | left => exact ⟨trivial, h⟩

theorem Unended.not_terminal {info : TaskInfo} (h : Unended info) :
    info.status.isTerminal = false := by
  rcases h with queued | ⟨running, -⟩
  · rw [queued]; rfl
  · rw [running]; rfl

def Progress.Allows (g : Progress) (id : String)
    (loaded : List (Except StorageError (Table × Nat))) (t : TaskInfo) : Prop :=
  match g.supervision id with
  | some (o, q) => q.Allows id loaded o t
  | none => Unended t

def Progress.Knows (g : Progress) (id : String)
    (loaded : List (Except StorageError (Table × Nat))) : Prop :=
  match g.supervision id with
  | some (o, q) => q.Knows id loaded o
  | none => loaded = []

def Progress.Unborn (g : Progress) (id : String) : Prop :=
  ∀ q, g.submission id = some q → q.phase = .idle

/-- Whether the supervision of a task may have left a table in the cache. -/
def Progress.HasStored (g : Progress) (id : String) : Prop :=
  ∃ o q, g.supervision id = some (o, q) ∧ q.HasStored

/-- What is known of a task agrees with what has happened to it. -/
structure Story (es : List Event) (m : Manager) (g : Progress) (id : String) : Prop where
  unborn : g.Unborn id → m.registry.tasks.get? id = none ∧ ∀ e ∈ es, ¬e.Cancels id
  canceled : ∀ t, m.registry.tasks.get? id = some t →
    (t.info.status = .canceled ↔ ∃ e ∈ es, e.Cancels id)
  allowed : ∀ t, m.registry.tasks.get? id = some t →
    t.info.status = .canceled ∨ g.Allows id (loads id es) t.info
  known : g.Knows id (loads id es)
  cached : m.cache.entries.has id = true → g.HasStored id

theorem Story.uncached {q : Supervising} (h : Story es m g id)
    (hq : g.supervision id = some (o, q)) (unstored : ¬q.HasStored) :
    m.cache.entries.has id = false := by
  refine Bool.eq_false_iff.mpr fun cached => unstored ?_
  obtain ⟨o', q', hq', stored⟩ := h.cached cached
  cases hq.symm.trans hq'
  exact stored

theorem Event.Cancels.known (h : e.Cancels id) :
    ∃ t, e.before.manager.registry.tasks.get? id = some t := by
  obtain ⟨-, before, won⟩ := h
  cases ht : e.before.manager.registry.tasks.get? id with
  | none =>
    rw [Registry.cancel_of_absent ht] at won
    cases won
  | some t => exact ⟨t, rfl⟩

theorem Progress.Moves.unborn {b : action.Answer} (moves : g.Moves role action b g')
    (h : g'.Unborn id) : g.Unborn id ∧ ∀ kind, action ≠ .record id kind := by
  cases moves with
  | free _ free => exact ⟨h, by rintro kind rfl; exact free⟩
  | @submission key _ _ _ _ _ q q' hq moves =>
    by_cases hk : id = key
    · subst hk
      have idle : q'.phase = .idle := h q' (by simp)
      have : q.phase = .idle ∧ ∀ kind, action ≠ .record id kind := by
        cases moves with
        | recordInVain => cases idle
        | record => cases idle
        | _ => first | exact ⟨rfl, by simp⟩ | cases idle
      exact ⟨fun q₀ hq₀ => Option.some.inj (hq.symm.trans hq₀) ▸ this.1, this.2⟩
    · refine ⟨fun q hq => h q (by simpa [hk] using hq), ?_⟩
      rintro kind rfl
      exact moves.key hk rfl
  | supervision _ moves => exact ⟨h, by cases moves <;> simp⟩
  | shutdown _ moves => exact ⟨h, by cases moves <;> simp⟩

theorem Progress.Moves.unborn_of_record {kind : JobKind} {b : (Action.record id kind).Answer}
    (moves : g.Moves role (.record id kind) b g') : g.Unborn id := by
  cases moves with
  | free _ free => exact free.elim
  | submission hq moves =>
    intro q hq'
    cases moves <;> cases hq.symm.trans hq' <;> rfl
  | supervision _ moves => cases moves
  | shutdown _ moves => cases moves

theorem Progress.Moves.ne_record {b : action.Answer} (moves : g.Moves role action b g')
    (born : ¬g.Unborn id) (kind : JobKind) : action ≠ .record id kind := by
  rintro rfl
  exact born moves.unborn_of_record

theorem Progress.unborn_of_enter (lacks : g.Lacks role) (h : (g.enter role).Unborn id) :
    g.Unborn id := fun q hq => h q (Progress.submission_enter lacks hq)

theorem Progress.Moves.of_store {table : Table} {size : Nat}
    {b : (Action.store id table size).Answer} (moves : g.Moves role (.store id table size) b g') :
    ∃ o, g.supervision id = some (o, .storing table size) ∧
      ∀ reference, b = .ok reference → g'.supervision id = some (o, .completing reference) := by
  cases moves with
  | free _ free => exact free.elim
  | submission _ moves => cases moves
  | supervision hq moves =>
    cases moves with
    | store table size reference => exact ⟨_, hq, fun _ h => by cases h; simp⟩
    | refuse table size e => exact ⟨_, hq, fun _ h => by cases h⟩
  | shutdown _ moves => cases moves

theorem Progress.Moves.hasStored {b : action.Answer} (moves : g.Moves role action b g')
    (h : g.HasStored id) : g'.HasStored id := by
  obtain ⟨o, q, hq, stored⟩ := h
  cases moves with
  | free => exact ⟨o, q, hq, stored⟩
  | submission => exact ⟨o, q, hq, stored⟩
  | @supervision key c _ _ q₀ q' hq₀ moves =>
    by_cases hk : id = key
    · subst hk
      cases hq.symm.trans hq₀
      exact ⟨c.outcome, q', by simp, moves.hasStored stored⟩
    · exact ⟨o, q, by simp [hk, hq], stored⟩
  | shutdown => exact ⟨o, q, hq, stored⟩

theorem Progress.HasStored.enter (h : g.HasStored id) (lacks : g.Lacks role) :
    (g.enter role).HasStored id := by
  obtain ⟨o, q, hq, stored⟩ := h
  cases role with
  | supervision key c =>
    have hk : id ≠ key := by
      rintro rfl
      cases hq.symm.trans lacks
    exact ⟨o, q, by simp [Progress.enter, hk, hq], stored⟩
  | _ => exact ⟨o, q, hq, stored⟩

theorem Story.other (h : Story es s.manager g id) (hq : g'.supervision id = g.supervision id)
    (hl : action ≠ .load id) (ha : action.Advances id → action = .cancel id) :
    (∀ u, (action.apply s.manager).1.registry.tasks.get? id = some u →
      u.info.status = .canceled ∨ g'.Allows id (loads id (es ++ [⟨s, role, action⟩])) u.info) ∧
    g'.Knows id (loads id (es ++ [⟨s, role, action⟩])) := by
  have same : loads id (es ++ [⟨s, role, action⟩]) = loads id es := loads_of_ne hl
  simp only [Progress.Allows, Progress.Knows, same, hq]
  refine ⟨fun u hu => ?_, h.known⟩
  by_cases adv : action.Advances id
  · rcases info_cancel (e := ⟨s, role, action⟩) (ha adv) hu with ⟨-, canceled⟩ | ⟨-, -, ht⟩
    · exact .inl canceled
    · exact h.allowed u ht
  · obtain ⟨t, ht, info⟩ := info_apply adv hu
    exact info ▸ h.allowed t ht

theorem Story.allowed_act (h : Story es s.manager g id) (accounted : Accounted es s.manager g id)
    (moves : g.Moves role action (action.apply s.manager).2 g') :
    (∀ u, (action.apply s.manager).1.registry.tasks.get? id = some u →
      u.info.status = .canceled ∨ g'.Allows id (loads id (es ++ [⟨s, role, action⟩])) u.info) ∧
    g'.Knows id (loads id (es ++ [⟨s, role, action⟩])) := by
  generalize hb : (action.apply s.manager).2 = b at moves
  cases moves with
  | free _ free =>
    refine h.other rfl (by rintro rfl; exact free) fun adv => ?_
    cases action <;> first | cases adv; rfl | exact free.elim | exact adv.elim
  | @submission key _ _ _ _ _ q q' hq moves =>
    have hl : action ≠ .load id := by cases moves <;> simp
    by_cases hr : ∃ kind, action = .record id kind
    · obtain ⟨kind, rfl⟩ := hr
      -- a record is made before there is a worker to supervise
      have hs : g.supervision id = none := by
        cases hs : g.supervision id with
        | none => rfl
        | some supervised =>
          obtain ⟨q₀, hq₀, alive⟩ := accounted.supervised _ _ hs
          cases moves <;> cases hq.symm.trans hq₀ <;> cases alive
      have known := h.known
      simp only [Progress.Allows, Progress.Knows, Progress.supervision_setSubmission, hs] at known ⊢
      refine ⟨fun u hu => .inr (.inl ?_), (loads_of_ne hl).trans known⟩
      simp only [Action.apply, Registry.tasks_insert, TaskInfo.queued, Store.get?_insert, if_true,
        Option.some.injEq] at hu
      rw [← hu]
    · refine h.other rfl hl fun adv => ?_
      cases moves with
      | recordInVain kind => cases adv; exact absurd ⟨kind, rfl⟩ hr
      | record kind => cases adv; exact absurd ⟨kind, rfl⟩ hr
      | settle r => cases adv; rfl
      | _ => exact adv.elim
  | @supervision key c _ _ q q' hq moves =>
    by_cases hk : id = key
    · subst hk
      have allowed := h.allowed
      have known := h.known
      simp only [Progress.Allows, Progress.Knows, hq] at allowed known
      simp only [Progress.Allows, Progress.Knows, Progress.supervision_setSupervision, if_true]
      exact ⟨fun u hu => moves.allows hb known allowed hu, moves.knows hb (h.uncached hq) known⟩
    · have other := moves.key hk
      exact h.other (by simp [hk]) (by rintro rfl; exact other rfl) fun adv =>
        absurd adv (Action.not_advances_of_ne other)
  | shutdown hq moves =>
    refine h.other rfl (by cases moves <;> simp) fun adv => ?_
    cases moves <;> first | cases adv; rfl | exact adv.elim

theorem Story.act (h : Story es s.manager g id) (accounted : Accounted es s.manager g id)
    (moves : g.Moves role action (action.apply s.manager).2 g') :
    Story (es ++ [⟨s, role, action⟩]) (action.apply s.manager).1 g' id where
  unborn unborn := by
    obtain ⟨unborn, hr⟩ := moves.unborn unborn
    obtain ⟨absent, never⟩ := h.unborn unborn
    refine ⟨absent_apply absent hr, fun e he cancels => ?_⟩
    rcases List.mem_append.mp he with he | he
    · exact never e he cancels
    · cases List.mem_singleton.mp he
      obtain ⟨t, ht⟩ := cancels.known
      cases absent.symm.trans ht
  canceled u hu := by
    by_cases hr : ∃ kind, action = .record id kind
    · obtain ⟨kind, rfl⟩ := hr
      have never := (h.unborn moves.unborn_of_record).2
      simp only [Action.apply, Registry.tasks_insert, TaskInfo.queued, Store.get?_insert, if_true,
        Option.some.injEq] at hu
      rw [← hu]
      simpa [or_imp, forall_and, Event.Cancels] using never
    · have before := h.canceled
      simp only [List.mem_append, List.mem_singleton, or_and_right, exists_or, exists_eq_left]
      rcases canceled_apply (e := ⟨s, role, action⟩) (not_exists.mp hr) hu with
        ⟨cancels, canceled⟩ | ⟨lost, t, ht, same⟩
      · simp [cancels, canceled]
      · simp [lost, same, h.canceled t ht]
  allowed := (h.allowed_act accounted moves).1
  known := (h.allowed_act accounted moves).2
  cached cached := by
    -- a table in the cache was put there by the supervision, right now or earlier
    by_cases hs : ∃ table size, action = .store id table size
    · obtain ⟨table, size, rfl⟩ := hs
      obtain ⟨o, hq, completing⟩ := moves.of_store
      have uncached : s.manager.cache.entries.has id = false := h.uncached hq fun h => h
      refine ⟨o, _, completing ⟨id, table.length, size⟩ ?_, trivial⟩
      exact Cache.put_snd.trans (by simp [uncached])
    · exact moves.hasStored (h.cached (cached_of_apply cached (by simpa using hs)))

theorem Story.call (h : Story es m g id) (lacks : g.Lacks role) : Story es m (g.enter role) id := by
  cases role with
  | submission key =>
    exact ⟨fun unborn => h.unborn (Progress.unborn_of_enter lacks unborn), h.canceled, h.allowed,
      h.known, h.cached⟩
  | supervision key c =>
    by_cases hk : id = key
    · subst hk
      have none : g.supervision id = none := lacks
      have allowed := h.allowed
      have known := h.known
      simp only [Progress.Allows, Progress.Knows, none] at allowed known
      refine ⟨h.unborn, h.canceled, ?_, ?_, fun cached => ?_⟩
      · simpa [Progress.Allows, Progress.enter, Supervising.Allows] using allowed
      · simpa [Progress.Knows, Progress.enter, Supervising.Knows] using known
      · obtain ⟨o, q, hq, -⟩ := h.cached cached
        cases none.symm.trans hq
    · have same : (g.enter (.supervision key c)).supervision id = g.supervision id := by
        simp [Progress.enter, hk]
      exact ⟨h.unborn, h.canceled, by simpa only [Progress.Allows, same] using h.allowed,
        by simpa only [Progress.Knows, same] using h.known,
        by simpa only [Progress.HasStored, same] using h.cached⟩
  | shutdown => exact ⟨h.unborn, h.canceled, h.allowed, h.known, h.cached⟩
  | _ => exact h

theorem Tracked.story (h : Tracked config es s g) (id : String) : Story es s.manager g id := by
  induction h with
  | start started =>
    obtain ⟨files, rfl⟩ := start_ok started
    exact {
      unborn := fun _ => ⟨rfl, by simp⟩
      canceled := by simp
      allowed := by simp
      known := rfl
      cached := by simp [Store.has] }
  | call role _ _ lacks ih => exact ih.call lacks
  | act tracked moves _ ih => exact ih.act (tracked.accounted id) moves
  | elapse _ _ ih => exact ⟨ih.unborn, ih.canceled, ih.allowed, ih.known, ih.cached⟩
  | write _ _ ih => exact ⟨ih.unborn, ih.canceled, ih.allowed, ih.known, ih.cached⟩

theorem Tracked.settled (h : Tracked config es s g) {t : TaskInfo}
    (known : s.manager.registry.get? id = some t) (ended : t.status.isTerminal = true)
    (live : t.status ≠ .canceled) :
    g.HasStored id ∧ ∃ o, Settled id (loads id es) o t := by
  obtain ⟨u, hu, rfl⟩ := Option.map_eq_some_iff.mp known
  have allowed := ((h.story id).allowed u hu).resolve_left live
  have not_unended : ¬Unended u.info := fun unended => by
    rw [unended.not_terminal] at ended
    cases ended
  unfold Progress.Allows at allowed
  split at allowed
  · next o q hq =>
    obtain ⟨stored, settled⟩ := allowed.settled not_unended
    exact ⟨⟨o, q, hq, stored⟩, o, settled⟩
  · exact absurd allowed not_unended

/-- When a supervision is over its task has ended: canceled if a cancellation won, completed if the
worker succeeded and its artifact was read, failed otherwise. -/
theorem supervised_task_ends (h : Run config es s) {course : Course} {t : TaskInfo}
    (left : ⟨.supervision id course, .done ()⟩ ∈ s.threads)
    (known : s.manager.registry.get? id = some t) :
    t.status.isTerminal = true ∧
    (t.status = .canceled ↔ ∃ e ∈ es, e.Cancels id) ∧
    (t.status ≠ .canceled →
      t.startedAt.isSome = true ∧
      (t.status = .completed ↔ (∃ path rows bytes, course.outcome = .succeeded path rows bytes) ∧
        ∃ table size, loads id es = [.ok (table, size)]) ∧
      (t.status = .completed → ∃ reference, t.resultRef = some reference ∧
        CompletesWith id (loads id es) course.outcome reference) ∧
      (t.status ≠ .completed → t.status = .failed ∧ ∃ failure, t.error = some failure ∧
        FailsWith (loads id es) course.outcome failure)) := by
  obtain ⟨g, tracked⟩ := h.tracked
  obtain ⟨q, hq, rfl⟩ := tracked.describes.at_place _ left
  obtain ⟨u, hu, rfl⟩ := Option.map_eq_some_iff.mp known
  have story := tracked.story id
  have allowed := story.allowed u hu
  -- at its last place a supervision leaves three endings, each with its cause
  simp only [Progress.Allows, hq] at allowed
  refine ⟨?_, story.canceled u hu, fun live => ?_⟩
  · rcases allowed with canceled | ⟨-, ⟨completed, -⟩ | ⟨failed, -⟩⟩
    · rw [canceled]; rfl
    · rw [completed]; rfl
    · rw [failed]; rfl
  · obtain ⟨started, ⟨completed, reference, href, because⟩ | ⟨failed, failure, hf, because⟩⟩ :=
      allowed.resolve_left live
    · obtain ⟨succeeded, table, size, read, same⟩ := because
      exact ⟨started, ⟨fun _ => ⟨succeeded, table, size, read⟩, fun _ => completed⟩,
        fun _ => ⟨reference, href, succeeded, table, size, read, same⟩,
        fun unfinished => absurd completed unfinished⟩
    · refine ⟨started, ⟨fun h => ?_, ?_⟩, fun h => ?_, fun _ => ⟨failed, failure, hf, because⟩⟩
      · cases failed.symm.trans h
      · rintro ⟨⟨path, rows, bytes, succeeded⟩, table, size, read⟩
        rw [succeeded] at because
        obtain ⟨e, unreadable, -⟩ := because
        cases read.symm.trans unreadable
      · cases failed.symm.trans h

def success : Course := ⟨0, [.message (.completed "a.jsonl" 1 2)], .code 0, []⟩

/-- A worker leaves an artifact of one row, and succeeds without having told that it began. -/
def succeeded : List Event × System :=
  let a := ((⟨idle, []⟩ : System).call (small "a")).follow [0, 0, 0, 0, 0, 0, 0]
  let b := ((⟨{ a.2.manager with files := spool ["a"] }, a.2.threads⟩ : System).call
    (.supervision "a" success)).follow [1, 1, 1, 1, 1, 1, 1, 1]
  (a.1 ++ b.1, b.2)

theorem run_succeeded : Run oneSlot succeeded.1 succeeded.2 := by
  have a := (run_idle.callSmall "a" [] rfl (by simp)).follow [0, 0, 0, 0, 0, 0, 0]
  have written := a.write (spool ["a"])
  refine (written.call (.supervision "a" success) ?_).follow [1, 1, 1, 1, 1, 1, 1, 1]
  refine System.admits_of_roles [small "a"] rfl (by simp [Role.Beside, small]) ?_
  rintro id c ⟨⟩
  rfl

/-- The task has completed, with the table of its artifact. -/
theorem succeeded_completes : ∃ t table, succeeded.2.manager.registry.get? "a" = some t ∧
    t.startedAt.isSome = true ∧ t.status = .completed ∧
    loads "a" succeeded.1 = [.ok (table, 2)] ∧ t.resultRef = some ⟨"a", table.length, 2⟩ := by
  have left : ⟨.supervision "a" success, .done ()⟩ ∈ succeeded.2.threads := .tail _ (.head _)
  let t : TaskInfo := { TaskInfo.queued "a" .execute default with
    status := .completed, startedAt := some default, endedAt := some default,
    progress := Binary.ofNat 1, resultRef := some ⟨"a", 1, 2⟩ }
  have known : succeeded.2.manager.registry.get? "a" = some t := rfl
  obtain ⟨-, -, ended⟩ := supervised_task_ends run_succeeded left known
  obtain ⟨started, -, result, -⟩ := ended (by simp [t])
  obtain ⟨reference, href, -, table, size, read, rfl⟩ := result rfl
  obtain rfl : 2 = size := congrArg ResultRef.bytes (Option.some.inj href)
  exact ⟨t, table, known, started, rfl, read, href⟩

end TaskFlow.Manager
