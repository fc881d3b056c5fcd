import TaskFlow.Proofs.Manager.Endings

namespace TaskFlow.Manager

variable {config : Config} {es es' : List Event} {s s' : System} {m m' m'' : Manager}
  {g g' : Progress} {role : Role} {action : Action} {id : String}
  {a b : Except TaskError Table} {t : TaskInfo}

/-- What a call for a result is told when nobody comes in between. -/
def answer (m : Manager) (id : String) : Except TaskError Table := ((result id).run m).2

def Waits (m : Manager) (id : String) : Prop :=
  ∃ t, m.registry.get? id = some t ∧ t.status.isTerminal = false

/-- How a task has ended: with a table, which is still there, with its failure, or canceled. -/
inductive Ended (m : Manager) (id : String) : Except TaskError Table → Prop
  | completed {t : TaskInfo} {e : CacheEntry} : m.registry.get? id = some t →
    t.status = .completed → m.cache.entries.get? id = some e → Ended m id (.ok e.table)
  | failed {t : TaskInfo} {failure : TaskFailure} : m.registry.get? id = some t →
    t.status = .failed → t.error = some failure → Ended m id (.error (.ofFailure failure))
  | canceled {t : TaskInfo} : m.registry.get? id = some t → t.status = .canceled →
    Ended m id (.error (.canceled id))

/-- Whether there is nothing to be had of a task any more: it is not known, or has completed and
its table is not there. -/
def Gone (m : Manager) (id : String) : Prop :=
  ∀ t, m.registry.get? id = some t → t.status = .completed ∧ m.cache.entries.get? id = none

theorem gone_of_absent (absent : m.registry.get? id = none) : Gone m id := fun t known => by
  cases absent.symm.trans known

theorem answer_eq : m.answer id = match m.registry.get? id with
    | none => .error (.notFound id)
    | some t => match t.status with
      | .queued | .running => .error (.notReady t.id t.status)
      | .canceled => .error (.canceled t.id)
      | .failed =>
        .error ((t.error.map TaskError.ofFailure).getD (.application "falla sin detalle"))
      | .completed => match m.cache.entries.get? id with
        | some e => .ok e.table
        | none => .error (.notFound id) := by
  rw [answer, result, Op.run_bind, info?, Op.run_perform]
  change (Op.run _ m).2 = _
  dsimp only [Action.apply]
  cases m.registry.get? id with
  | none => rfl
  | some t =>
    dsimp only
    cases t.status with
    | completed =>
      rw [Op.run_bind, Op.run_perform]
      dsimp only [Action.apply, onCache, Cache.get]
      cases m.cache.entries.get? id <;> rfl
    | _ => rfl

theorem answer_of_active (known : m.registry.get? id = some t)
    (active : t.status.isTerminal = false) : m.answer id = .error (.notReady t.id t.status) := by
  rw [answer_eq, known]
  dsimp only
  cases status : t.status <;> rw [status] at active <;> first | rfl | cases active

theorem Waits.answer (keyed : m.registry.Keyed) (h : Waits m id) :
    ∃ status, status.isTerminal = false ∧ m.answer id = .error (.notReady id status) := by
  obtain ⟨t, known, active⟩ := h
  obtain ⟨u, hu, rfl⟩ := Option.map_eq_some_iff.mp known
  refine ⟨_, active, ?_⟩
  rw [answer_of_active known active, keyed id u hu]

theorem Ended.answer (keyed : m.registry.Keyed) (h : Ended m id a) : m.answer id = a := by
  cases h with
  | completed known status cached => rw [answer_eq, known]; simp only [status, cached]
  | failed known status told => rw [answer_eq, known]; simp only [status, told]; rfl
  | @canceled t known status =>
    obtain ⟨u, hu, rfl⟩ := Option.map_eq_some_iff.mp known
    rw [answer_eq, known]
    simp only [status, keyed id u hu]

theorem Gone.answer (h : Gone m id) : m.answer id = .error (.notFound id) := by
  rw [answer_eq]
  cases known : m.registry.get? id with
  | none => rfl
  | some t =>
    obtain ⟨completed, uncached⟩ := h t known
    simp only [completed, uncached]

theorem Tracked.phases (h : Tracked config es s g) (id : String) :
    Waits s.manager id ∨ (∃ a, Ended s.manager id a) ∨ Gone s.manager id := by
  cases known : s.manager.registry.get? id with
  | none => exact .inr (.inr (gone_of_absent known))
  | some t =>
    cases status : t.status with
    | queued => exact .inl ⟨t, known, by rw [status]; rfl⟩
    | running => exact .inl ⟨t, known, by rw [status]; rfl⟩
    | canceled => exact .inr (.inl ⟨_, .canceled known status⟩)
    | failed =>
      obtain ⟨-, o, -, ⟨completed, -⟩ | ⟨-, failure, told, -⟩⟩ :=
        h.settled known (by rw [status]; rfl) (by rw [status]; nofun)
      · cases status.symm.trans completed
      · exact .inr (.inl ⟨_, .failed known status told⟩)
    | completed =>
      cases cached : s.manager.cache.entries.get? id with
      | some e => exact .inr (.inl ⟨_, .completed known status cached⟩)
      | none =>
        refine .inr (.inr fun u hu => ?_)
        cases known.symm.trans hu
        exact ⟨status, cached⟩

theorem known_apply_of_ended (ended : ∀ t, m.registry.get? id = some t → t.status.isTerminal = true)
    (hr : ∀ kind, action ≠ .record id kind) :
    (action.apply m).1.registry.get? id = m.registry.get? id ∨
      (action.apply m).1.registry.get? id = none := by
  have inactive : m.registry.Inactive id := fun u hu =>
    ended u.info (by rw [Registry.get?_eq, hu]; rfl)
  rcases record_apply_of_inactive inactive hr with same | gone
  · exact .inl (congrArg (Option.map TaskRecord.info) same)
  · exact .inr (congrArg (Option.map TaskRecord.info) gone)

theorem kept_apply (known : m.registry.get? id = some t) (ends : t.status.isTerminal = true)
    (hr : ∀ kind, action ≠ .record id kind) :
    (action.apply m).1.registry.get? id = some t ∨ Gone (action.apply m).1 id := by
  have ended (u : TaskInfo) (hu : m.registry.get? id = some u) : u.status.isTerminal = true := by
    cases known.symm.trans hu
    exact ends
  exact (known_apply_of_ended ended hr).imp (·.trans known) gone_of_absent

/-- A task that has completed: its supervision is done with it, and it is known as completed as long
as it is known. -/
structure Sealed (g : Progress) (m : Manager) (id : String) : Prop where
  born : ¬g.Unborn id
  stored : g.HasStored id
  record : ∀ t, m.registry.get? id = some t → t.status = .completed

theorem Tracked.born_of_known (h : Tracked config es s g)
    (known : s.manager.registry.get? id = some t) : ¬g.Unborn id := fun unborn => by
  rw [Registry.get?_eq, ((h.story id).unborn unborn).1] at known
  cases known

theorem Tracked.sealed_of_completed (h : Tracked config es s g)
    (known : s.manager.registry.get? id = some t) (completed : t.status = .completed) :
    Sealed g s.manager id where
  born := h.born_of_known known
  stored := (h.settled known (by rw [completed]; rfl) (by rw [completed]; nofun)).1
  record u hu := by cases known.symm.trans hu; exact completed

theorem Sealed.act {b : action.Answer} (h : Sealed g m id) (moves : g.Moves role action b g') :
    Sealed g' (action.apply m).1 id ∧
      ∀ e, (action.apply m).1.cache.entries.get? id = some e →
        ∃ before, m.cache.entries.get? id = some before ∧ before.table = e.table := by
  have hs (table : Table) (bytes : Nat) : action ≠ .store id table bytes := by
    rintro rfl
    obtain ⟨o, hq, -⟩ := moves.of_store
    obtain ⟨o', q, hq', stored⟩ := h.stored
    cases hq.symm.trans hq'
    exact stored
  have ended (t : TaskInfo) (known : m.registry.get? id = some t) : t.status.isTerminal = true := by
    rw [h.record t known]
    rfl
  refine ⟨⟨fun unborn => h.born (moves.unborn unborn).1, moves.hasStored h.stored, ?_⟩, ?_⟩
  · intro t known
    rcases known_apply_of_ended ended (moves.ne_record h.born) with same | gone
    · exact h.record t (same ▸ known)
    · cases gone.symm.trans known
  · intro e cached
    obtain ⟨-, before, found, alike⟩ := alike_of_apply cached hs
    exact ⟨before, found, alike.1⟩

/-- What lies between two moments after a task was recorded: it ends at most once, and does not come
back when it is gone. -/
structure Onward (id : String) (m m' : Manager) : Prop where
  ended : ∀ a, Ended m id a → Ended m' id a ∨ Gone m' id
  gone : Gone m id → Gone m' id

theorem Onward.of_same (registry : m'.registry = m.registry) (cache : m'.cache = m.cache) :
    Onward id m m' where
  ended a h := .inl <| by
    cases h with
    | completed known status cached => exact .completed (registry ▸ known) status (cache ▸ cached)
    | failed known status told => exact .failed (registry ▸ known) status told
    | canceled known status => exact .canceled (registry ▸ known) status
  gone h t known := by
    rw [registry] at known
    rw [cache]
    exact h t known

theorem Onward.trans (h : Onward id m m') (h' : Onward id m' m'') : Onward id m m'' where
  ended a before := (h.ended a before).elim (h'.ended a) fun gone => .inr (h'.gone gone)
  gone before := h'.gone (h.gone before)

theorem Tracked.ended_act (h : Tracked config es s g) {b : action.Answer}
    (moves : g.Moves role action b g') (born : ¬g.Unborn id) (ended : Ended s.manager id a) :
    Ended (action.apply s.manager).1 id a ∨ Gone (action.apply s.manager).1 id := by
  have kept {t : TaskInfo} (known : s.manager.registry.get? id = some t)
      (ends : t.status.isTerminal = true) := kept_apply known ends (moves.ne_record born)
  rcases ended with ⟨known, status, cached⟩ | ⟨known, status, told⟩ | ⟨known, status⟩
  · obtain ⟨sealed, old⟩ := (h.sealed_of_completed known status).act moves
    refine (kept known (by rw [status]; rfl)).elim (fun same => ?_) .inr
    cases after : (action.apply s.manager).1.cache.entries.get? id with
    | none => exact .inr fun u hu => ⟨sealed.record u hu, after⟩
    | some e =>
      obtain ⟨before, found, table⟩ := old e after
      cases cached.symm.trans found
      exact .inl (table ▸ .completed same status after)
  · exact (kept known (by rw [status]; rfl)).imp_left (.failed · status told)
  · exact (kept known (by rw [status]; rfl)).imp_left (.canceled · status)

theorem Tracked.gone_act (h : Tracked config es s g) {b : action.Answer}
    (moves : g.Moves role action b g') (born : ¬g.Unborn id) (gone : Gone s.manager id) :
    Gone (action.apply s.manager).1 id := by
  intro t known
  have ended (u : TaskInfo) (hu : s.manager.registry.get? id = some u) :
      u.status.isTerminal = true := by
    rw [(gone u hu).1]
    rfl
  rcases known_apply_of_ended ended (moves.ne_record born) with same | absent
  · rw [same] at known
    obtain ⟨completed, uncached⟩ := gone t known
    obtain ⟨-, old⟩ := (h.sealed_of_completed known completed).act moves
    refine ⟨completed, Option.eq_none_iff_forall_ne_some.mpr fun e after => ?_⟩
    obtain ⟨before, found, -⟩ := old e after
    cases uncached.symm.trans found
  · exact gone_of_absent absent t known

/-- The systems that a run came by: what its events found, and how things are now. -/
def moments (es : List Event) (s : System) : List System := es.map (·.before) ++ [s]

theorem moments_concat {ev : Event} :
    moments (es ++ [ev]) s = moments es ev.before ++ [s] := by
  simp [moments]

section Pairwise

variable {α : Type} {R : α → α → Prop} {P Q : α → Prop} {l : List α} {x y : α}

theorem pairwise_extend (trans : ∀ x y z, R x y → R y z → R x z) (h : (l ++ [x]).Pairwise R)
    (step : R x y) : (l ++ [x] ++ [y]).Pairwise R := by
  obtain ⟨-, -, last⟩ := List.pairwise_append.mp h
  refine List.pairwise_append.mpr ⟨h, List.pairwise_singleton .., fun z hz w hw => ?_⟩
  obtain rfl := List.mem_singleton.mp hw
  rcases List.mem_append.mp hz with hz | hz
  · exact trans _ _ _ (last z hz x (List.mem_singleton_self x)) step
  · rwa [List.mem_singleton.mp hz]

theorem pairwise_replace (trans : ∀ x y z, R x y → R y z → R x z) (h : (l ++ [x]).Pairwise R)
    (step : R x y) : (l ++ [y]).Pairwise R :=
  (pairwise_extend trans h step).sublist ((List.sublist_append_left l [x]).append (.refl [y]))

theorem exists_split (either : ∀ x ∈ l, P x ∨ Q x) (stays : l.Pairwise fun x y => Q x → Q y) :
    ∃ l₁ l₂, l = l₁ ++ l₂ ∧ (∀ x ∈ l₁, P x) ∧ ∀ x ∈ l₂, Q x := by
  induction l with
  | nil => exact ⟨[], [], rfl, by simp, by simp⟩
  | cons x l ih =>
    obtain ⟨first, later⟩ := List.pairwise_cons.mp stays
    rcases either x List.mem_cons_self with now | now
    · obtain ⟨l₁, l₂, rfl, h₁, h₂⟩ := ih (fun y hy => either y (List.mem_cons_of_mem x hy)) later
      exact ⟨x :: l₁, l₂, rfl, List.forall_mem_cons.mpr ⟨now, h₁⟩, h₂⟩
    · exact ⟨[], x :: l, rfl, by simp,
        List.forall_mem_cons.mpr ⟨now, fun y hy => first y hy now⟩⟩

theorem either_before (h : l.Pairwise R) (hx : x ∈ l) (hy : y ∈ l) : x = y ∨ R x y ∨ R y x := by
  induction l with
  | nil => cases hx
  | cons z l ih =>
    obtain ⟨first, later⟩ := List.pairwise_cons.mp h
    rcases List.mem_cons.mp hx with hx | hx <;> rcases List.mem_cons.mp hy with hy | hy
    · exact .inl (hx.trans hy.symm)
    · exact .inr (.inl (hx ▸ first y hy))
    · exact .inr (.inr (hy ▸ first x hx))
    · exact ih later hx hy

end Pairwise

theorem Tracked.onward (h : Tracked config es s g) {before after : List Event} {e : Event}
    {kind : JobKind} (split : es = before ++ e :: after) (recorded : e.action = .record id kind) :
    ¬g.Unborn id ∧
      (moments after s).Pairwise fun s s' => Onward id s.manager s'.manager := by
  have trans (x y z : System) (h : Onward id x.manager y.manager)
      (h' : Onward id y.manager z.manager) : Onward id x.manager z.manager := h.trans h'
  -- on the run: it grows at its end, and so do the moments after the record
  induction h generalizing after with
  | start => simp at split
  | call role _ _ lacks ih =>
    obtain ⟨born, ahead⟩ := ih split
    exact ⟨fun unborn => born (Progress.unborn_of_enter lacks unborn),
      pairwise_replace trans ahead (.of_same rfl rfl)⟩
  | @act es m before' after' role action rest g g' tracked moves _ ih =>
    rcases List.eq_nil_or_concat after with rfl | ⟨after, last, rfl⟩
    · obtain ⟨rfl, last⟩ := List.append_inj' split rfl
      obtain rfl := List.singleton_inj.mp last
      refine ⟨fun unborn => (moves.unborn unborn).2 kind recorded, ?_⟩
      exact List.pairwise_singleton ..
    · rw [List.concat_eq_append, ← List.cons_append, ← List.append_assoc] at split
      obtain ⟨earlier, last⟩ := List.append_inj' split rfl
      obtain rfl := List.singleton_inj.mp last
      obtain ⟨born, ahead⟩ := ih earlier
      refine ⟨fun unborn => born (moves.unborn unborn).1, ?_⟩
      rw [List.concat_eq_append, moments_concat]
      exact pairwise_extend trans ahead
        ⟨fun a => tracked.ended_act moves born, tracked.gone_act moves born⟩
  | elapse now _ ih =>
    obtain ⟨born, ahead⟩ := ih split
    exact ⟨born, pairwise_replace trans ahead (.of_same rfl rfl)⟩
  | write files _ ih =>
    obtain ⟨born, ahead⟩ := ih split
    exact ⟨born, pairwise_replace trans ahead (.of_same rfl rfl)⟩

/-- Moments that go on in one direction: first the task waits, then it has ended in one way, then it
is gone. -/
theorem split_of_onward {l : List System}
    (ahead : l.Pairwise fun s s' => Onward id s.manager s'.manager)
    (phases : ∀ u ∈ l, Waits u.manager id ∨ (∃ a, Ended u.manager id a) ∨ Gone u.manager id) :
    ∃ waiting ended gone a, l = waiting ++ ended ++ gone ∧ (∀ u ∈ waiting, Waits u.manager id) ∧
      (∀ u ∈ ended, Ended u.manager id a) ∧ ∀ u ∈ gone, Gone u.manager id := by
  obtain ⟨waiting, rest, rfl, waits, later⟩ := exists_split phases (ahead.imp fun onward before =>
    before.elim (fun ⟨a, ended⟩ => (onward.ended a ended).imp_left (⟨a, ·⟩))
      fun gone => .inr (onward.gone gone))
  obtain ⟨-, ahead, -⟩ := List.pairwise_append.mp ahead
  cases rest with
  | nil => exact ⟨waiting, [], [], .error (.notFound id), by simp, waits, by simp, by simp⟩
  | cons u rest =>
    obtain ⟨first, -⟩ := List.pairwise_cons.mp ahead
    rcases later u List.mem_cons_self with ⟨a, now⟩ | now
    · have either : ∀ v ∈ u :: rest, Ended v.manager id a ∨ Gone v.manager id :=
        List.forall_mem_cons.mpr ⟨.inl now, fun v hv => (first v hv).ended a now⟩
      obtain ⟨ended, gone, same, h⟩ := exists_split either (ahead.imp Onward.gone)
      exact ⟨waiting, ended, gone, a, by rw [same, List.append_assoc], waits, h⟩
    · exact ⟨waiting, [], u :: rest, .error (.notFound id), by simp, waits, by simp,
        List.forall_mem_cons.mpr ⟨now, fun v hv => (first v hv).gone now⟩⟩

theorem Run.at_moments (h : Run config es s) :
    ∀ u ∈ moments es s, ∃ es' g, Tracked config es' u g := by
  intro u hu
  rcases List.mem_append.mp hu with hu | hu
  · obtain ⟨e, he, rfl⟩ := List.mem_map.mp hu
    obtain ⟨es', run⟩ := h.reached e he
    exact ⟨es', run.tracked⟩
  · obtain rfl := List.mem_singleton.mp hu
    exact ⟨es, h.tracked⟩

/-- An answer and a later one: the task was not ready, or the answer is the same, or the result is
gone. -/
def LeadsTo (id : String) (a b : Except TaskError Table) : Prop :=
  (∃ status, a = .error (.notReady id status)) ∨ a = b ∨ b = .error (.notFound id)

theorem Onward.leadsTo (h : Onward id s.manager s'.manager) (before : Tracked config es s g)
    (after : Tracked config es' s' g') :
    LeadsTo id (s.manager.answer id) (s'.manager.answer id) := by
  rcases before.phases id with waits | ⟨a, ended⟩ | gone
  · obtain ⟨status, -, told⟩ := waits.answer before.keyed
    exact .inl ⟨status, told⟩
  · rw [ended.answer before.keyed]
    exact .inr ((h.ended a ended).imp (fun same => (same.answer after.keyed).symm) Gone.answer)
  · exact .inr (.inr (h.gone gone).answer)

end TaskFlow.Manager
