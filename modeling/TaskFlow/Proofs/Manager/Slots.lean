import Mathlib.Data.List.Perm.Subperm
import TaskFlow.Proofs.Manager.Progress
import TaskFlow.Proofs.Manager.Schedule

namespace TaskFlow.Manager

variable {config : Config} {es : List Event} {s : System} {m : Manager} {g g' : Progress}
  {role : Role} {action : Action} {id : String} {t : Thread}

def Progress.carries (g : Progress) : Role → Bool
  | .submission id .. => match g.submission id with
    | some .carrying => true
    | _ => false
  | _ => false

theorem Progress.Moves.carries {b : action.Answer} (h : g.Moves role action b g') :
    g'.carries role = action.takesSlot b := by
  cases h with
  | free free_role free_action =>
    have idle : g.carries role = false := by cases role <;> first | rfl | cases free_role
    have none : action.takesSlot b = false := by cases action <;> first | rfl | cases free_action
    rw [idle, none]
  | submission hq moves => cases moves <;> simp [Progress.carries, Action.takesSlot]
  | supervision hq moves => cases moves <;> rfl
  | shutdown hq moves => cases moves <;> rfl

theorem Submission.Moves.placesSlot {q q' : Submission} {b : action.Answer}
    (h : q.Moves id action b q') : action.placesSlot = match q with
      | .carrying => true
      | _ => false := by
  cases h <;> rfl

theorem Thread.At.carriesSlot (h : t.At g) : t.carriesSlot = g.carries t.role := by
  obtain ⟨role, rest⟩ := t
  cases rest with
  | done a => cases role with
    | submission id kind payload e =>
      obtain ⟨q, hq, rfl⟩ := h
      simp [Thread.carriesSlot, Procedure.next?, Progress.carries, hq]
    | _ => rfl
  | take act rest =>
    -- which action is next does not depend on what it will find, so any answer tells the place
    have carriesSlot_eq : Thread.carriesSlot ⟨role, .take act rest⟩ = act.placesSlot := by
      cases act <;> rfl
    obtain ⟨b⟩ : Nonempty act.Answer := inferInstance
    rw [carriesSlot_eq]
    cases role with
    | submission id kind payload e =>
      obtain ⟨q, hq, follows⟩ := h
      obtain ⟨q', moves, -⟩ := follows b
      simp only [Progress.carries, hq, moves.placesSlot]
      cases q <;> rfl
    | supervision id c =>
      obtain ⟨q, -, follows⟩ := h
      obtain ⟨q', moves, -⟩ := follows b
      cases moves <;> rfl
    | shutdown =>
      obtain ⟨q, -, follows⟩ := h
      obtain ⟨q', moves, -⟩ := follows b
      cases moves <;> rfl
    | _ =>
      have free : act.IsFree := h.1
      cases act <;> first | rfl | cases free

/-- The number of slots stays the same: those that are free and those that are taken make up what
there is. -/
theorem Tracked.size (h : Tracked config es s g) :
    s.manager.registry.free + s.slotsTaken = config.maxConcurrency := by
  induction h with
  | start started =>
    obtain ⟨files, rfl⟩ := start_ok started
    rfl
  | @call es s g role tracked _ _ ih =>
    have idle : (Thread.start role).carriesSlot = false := by
      rw [(Thread.at_start g role).carriesSlot]
      cases role <;> simp [Thread.start, Progress.carries, Progress.enter]
    simpa [System.slotsTaken, List.countP_append, idle] using ih
  | @act es m before after role action rest g g' _ moves describes ih =>
    -- an action takes a slot just when its thread carries one afterwards, and places it just when
    -- the thread carried one before
    have arrives : Thread.carriesSlot ⟨role, rest (action.apply m).2⟩ =
        action.takesSlot (action.apply m).2 := by
      rw [(describes.at_place ⟨role, rest (action.apply m).2⟩ (by simp)).carriesSlot, moves.carries]
    have departs : Thread.carriesSlot ⟨role, .take action rest⟩ = action.placesSlot := by
      cases action <;> rfl
    have size := size_apply m action
    have count (b : Bool) : (if b = true then 1 else 0) = b.toNat := by cases b <;> rfl
    simp only [System.slotsTaken, List.countP_append, List.countP_cons, arrives, departs, count]
      at ih ⊢
    omega
  | elapse _ _ ih => exact ih
  | write _ _ ih => exact ih

/-- Where a task is on the way of its slot and its worker. -/
inductive Phase
  | idle
  | refused
  | prepared
  | alive
  | ended
  | gone

def Submission.phase : Submission → Phase
  | .asking | .acquiring | .carrying => .idle
  | .answered (.error _) => .refused
  | .withdrawing _ | .releasing _ | .launching => .prepared
  | _ => .alive

def Supervising.phase : Supervising → Phase
  | .watching => .alive
  | .leaving | .left => .gone
  | _ => .ended

def Progress.phase (g : Progress) (id : String) : Phase :=
  match g.supervision id, g.submission id with
  | some (_, w), _ => w.phase
  | none, some q => q.phase
  | none, none => .idle

def Event.givesBack (id : String) (e : Event) : Bool :=
  e.before.manager.registry.slots.contains id && !e.after.registry.slots.contains id

def timesGiven (id : String) (es : List Event) : Nat := es.countP (·.givesBack id)

/-- What belongs to a phase: whether the task has a slot and a worker, and how often it gave a slot
back. -/
def Phase.Fits (id : String) (es : List Event) (m : Manager) : Phase → Prop
  | .idle => id ∉ m.registry.slots ∧ m.workers.has id = false ∧ timesGiven id es = 0
  | .refused => id ∉ m.registry.slots ∧ m.workers.has id = false
  | .prepared => id ∈ m.registry.slots ∧ m.workers.has id = false ∧ timesGiven id es = 0
  | .alive => id ∈ m.registry.slots ∧ m.workers.has id = true ∧ timesGiven id es = 0
  | .ended => m.workers.has id = false ∧
    (id ∈ m.registry.slots ∧ timesGiven id es = 0 ∨ id ∉ m.registry.slots ∧ timesGiven id es = 1)
  | .gone => id ∉ m.registry.slots ∧ m.workers.has id = false ∧ timesGiven id es = 1

/-- A task has the slot and the worker of its phase; only a launched worker is supervised. -/
structure Accounted (es : List Event) (m : Manager) (g : Progress) (id : String) : Prop where
  supervised : ∀ o w, g.supervision id = some (o, w) →
    ∃ q, g.submission id = some q ∧ q.phase = .alive
  fits : (g.phase id).Fits id es m

variable {e : Event} {p : Phase}

theorem Accounted.congr (h : Accounted es m g id) (hq : g'.submission id = g.submission id)
    (hw : g'.supervision id = g.supervision id) : Accounted es m g' id where
  supervised o w := by simpa only [hq, hw] using h.supervised o w
  fits := by simpa only [Progress.phase, hq, hw] using h.fits

theorem Progress.phase_of_supervised {o : Outcome} {w : Supervising}
    (h : g.supervision id = some (o, w)) : g.phase id = w.phase := by
  simp [phase, h]

theorem Progress.phase_of_submitted {q : Submission} (h : g.supervision id = none)
    (hq : g.submission id = some q) : g.phase id = q.phase := by
  simp [phase, h, hq]

theorem Progress.phase_setSubmission {q : Submission} (h : g.supervision id = none) :
    (g.setSubmission id q).phase id = q.phase := phase_of_submitted h (by simp)

@[simp] theorem Progress.phase_setSupervision {o : Outcome} {w : Supervising} :
    (g.setSupervision id o w).phase id = w.phase := phase_of_supervised (o := o) (by simp)

theorem timesGiven_append :
    timesGiven id (es ++ [e]) = timesGiven id es + (e.givesBack id).toNat := by
  rw [timesGiven, List.countP_append, List.countP_singleton]
  cases e.givesBack id <;> rfl

theorem givesBack_iff :
    e.givesBack id = true ↔ id ∈ e.before.manager.registry.slots ∧ id ∉ e.after.registry.slots := by
  simp [Event.givesBack]

theorem timesGiven_of_kept
    (h : id ∈ e.before.manager.registry.slots → id ∈ e.after.registry.slots) :
    timesGiven id (es ++ [e]) = timesGiven id es := by
  have : e.givesBack id = false :=
    Bool.eq_false_iff.mpr fun gives => (givesBack_iff.mp gives).2 (h (givesBack_iff.mp gives).1)
  simp [timesGiven_append, this]

theorem timesGiven_of_lost (h : id ∈ e.before.manager.registry.slots)
    (h' : id ∉ e.after.registry.slots) : timesGiven id (es ++ [e]) = timesGiven id es + 1 := by
  rw [timesGiven_append, givesBack_iff.mpr ⟨h, h'⟩]
  rfl

theorem Phase.Fits.keep (h : p.Fits id es e.before.manager) (ha : ¬e.action.Affects id) :
    p.Fits id (es ++ [e]) e.after := by
  have slot : id ∈ e.after.registry.slots ↔ id ∈ e.before.manager.registry.slots := slot_apply ha
  have worker : e.after.workers.has id = e.before.manager.workers.has id := has_worker_apply ha
  cases p <;> simpa only [Fits, slot, worker, timesGiven_of_kept slot.mpr] using h

theorem Phase.Fits.alive (h : p.Fits id es m) (worker : m.workers.has id = true) :
    p = .alive := by
  cases p with
  | alive => rfl
  | _ => simp [Fits, worker] at h

theorem Phase.Fits.ended (h : Phase.ended.Fits id es e.before.manager)
    (worker : e.after.workers.has id = e.before.manager.workers.has id)
    (slot : id ∈ e.after.registry.slots → id ∈ e.before.manager.registry.slots) :
    Phase.ended.Fits id (es ++ [e]) e.after := by
  refine ⟨worker.trans h.1, ?_⟩
  rcases h.2 with ⟨held, once⟩ | ⟨free, once⟩
  · by_cases kept : id ∈ e.after.registry.slots
    · exact .inl ⟨kept, (timesGiven_of_kept fun _ => kept).trans once⟩
    · exact .inr ⟨kept, by rw [timesGiven_of_lost held kept, once]⟩
  · refine .inr ⟨fun held => free (slot held), (timesGiven_of_kept fun held => ?_).trans once⟩
    exact absurd held free

theorem Submission.Moves.fits {q q' : Submission} {b : action.Answer}
    (moves : q.Moves id action b q') (nodup : s.manager.registry.slots.Nodup)
    (h : q.phase.Fits id es s.manager) :
    q'.phase.Fits id (es ++ [⟨s, role, action⟩]) (action.apply s.manager).1 := by
  have keep {p : Phase} (h : p.Fits id es s.manager) (ha : ¬action.Affects id) :
      p.Fits id (es ++ [⟨s, role, action⟩]) (action.apply s.manager).1 :=
    Phase.Fits.keep (e := ⟨s, role, action⟩) h ha
  have recorded {kind : JobKind} (hr : action = .record id kind)
      (h : Phase.idle.Fits id es s.manager) :
      Phase.prepared.Fits id (es ++ [⟨s, role, action⟩]) (action.apply s.manager).1 := by
    subst hr
    obtain ⟨free, idle, never⟩ := h
    refine ⟨by simp [Action.apply, TaskInfo.queued], idle, ?_⟩
    exact (timesGiven_of_kept fun held => absurd held free).trans never
  cases moves with
  | turnAway => exact ⟨(keep h False.elim).1, (keep h False.elim).2.1⟩
  | reject e => exact ⟨(keep h False.elim).1, (keep h False.elim).2.1⟩
  | exhaust e => exact ⟨(keep h False.elim).1, (keep h False.elim).2.1⟩
  | recordInVain kind reason => exact recorded rfl h
  | record kind => exact recorded rfl h
  | release reason b =>
    refine ⟨?_, h.2.1⟩
    simpa [Action.apply, onRegistry, Registry.releaseSlot] using nodup.not_mem_erase
  | launch job =>
    refine ⟨h.1, by simp [Action.apply, Manager.launch], ?_⟩
    exact (timesGiven_of_kept fun held => held).trans h.2.2
  | _ => exact keep h (by simp [Action.Affects])

theorem Supervising.Moves.fits {o : Outcome} {q q' : Supervising} {b : action.Answer}
    (moves : q.Moves id o action b q') (nodup : s.manager.registry.slots.Nodup)
    (h : q.phase.Fits id es s.manager) :
    q'.phase.Fits id (es ++ [⟨s, role, action⟩]) (action.apply s.manager).1 := by
  have keep {p : Phase} (h : p.Fits id es s.manager) (ha : ¬action.Affects id) :
      p.Fits id (es ++ [⟨s, role, action⟩]) (action.apply s.manager).1 :=
    Phase.Fits.keep (e := ⟨s, role, action⟩) h ha
  have ended (h : Phase.ended.Fits id es s.manager) (hr : ∀ kind, action ≠ .record id kind)
      (worker : (action.apply s.manager).1.workers.has id = s.manager.workers.has id) :
      Phase.ended.Fits id (es ++ [⟨s, role, action⟩]) (action.apply s.manager).1 :=
    Phase.Fits.ended (e := ⟨s, role, action⟩) h worker (slot_of_apply hr)
  have reaped (hr : action = .reap id) (h : Phase.alive.Fits id es s.manager) :
      Phase.ended.Fits id (es ++ [⟨s, role, action⟩]) (action.apply s.manager).1 := by
    subst hr
    refine ⟨by simp [Action.apply], .inl ⟨h.1, ?_⟩⟩
    exact (timesGiven_of_kept fun held => held).trans h.2.2
  cases moves with
  | reapStopped forced ho => exact reaped rfl h
  | reapEnded ho => exact reaped rfl h
  | complete reference t => exact ended h (by simp) rfl
  | lose reference e => exact ended h (by simp) rfl
  | noteFailure failure r q hq => obtain rfl | rfl := hq <;> exact ended h (by simp) rfl
  | release b =>
    -- the slot may have gone with the transition already: then there is nothing left to release
    have lost := ended h (by simp) rfl
    have free : id ∉ ((Action.release id).apply s.manager).1.registry.slots := by
      simpa [Action.apply, onRegistry, Registry.releaseSlot] using nodup.not_mem_erase
    exact ⟨free, lost.1, (lost.2.resolve_left fun held => free held.1).2⟩
  | _ => exact keep h (by simp [Action.Affects])

theorem Submission.Moves.alive {q q' : Submission} {b : action.Answer}
    (moves : q.Moves id action b q') (h : q.phase = .alive) :
    q'.phase = .alive ∧ ¬action.Affects id := by
  cases moves <;> first | exact ⟨rfl, False.elim⟩ | cases h

theorem Action.IsFree.not_affects (h : action.IsFree) : ¬action.Affects id := by
  cases action <;> first | exact False.elim | cases h

theorem Submission.Moves.key {key : String} {q q' : Submission} {b : action.Answer}
    (moves : q.Moves key action b q') (h : id ≠ key) : action.key? ≠ some id := by
  cases moves <;> simp [Action.key?, h.symm]

theorem Supervising.Moves.key {key : String} {o : Outcome} {q q' : Supervising} {b : action.Answer}
    (moves : q.Moves key o action b q') (h : id ≠ key) : action.key? ≠ some id := by
  cases moves <;> simp [Action.key?, h.symm]

theorem Accounted.keep (h : Accounted es s.manager g id) (ha : ¬action.Affects id) :
    Accounted (es ++ [⟨s, role, action⟩]) (action.apply s.manager).1 g id :=
  ⟨h.supervised, Phase.Fits.keep (e := ⟨s, role, action⟩) h.fits ha⟩

theorem Accounted.act {b : action.Answer} (h : Accounted es s.manager g id)
    (moves : g.Moves role action b g') (nodup : s.manager.registry.slots.Nodup) :
    Accounted (es ++ [⟨s, role, action⟩]) (action.apply s.manager).1 g' id := by
  cases moves with
  | free _ free => exact h.keep free.not_affects
  | @submission key _ _ _ _ _ q q' hq moves =>
    by_cases hk : id = key
    · subst hk
      cases hs : g.supervision id with
      | none =>
        refine ⟨fun o w how => by simp [hs] at how, ?_⟩
        rw [Progress.phase_setSubmission hs]
        exact moves.fits nodup (Progress.phase_of_submitted hs hq ▸ h.fits)
      | some supervised =>
        -- the submission still settles while the worker is supervised, and changes no phase
        obtain ⟨o, w⟩ := supervised
        obtain ⟨_, hq', alive⟩ := h.supervised o w hs
        cases hq.symm.trans hq'
        obtain ⟨alive', ha⟩ := moves.alive alive
        refine ⟨fun o w _ => ⟨q', by simp, alive'⟩, ?_⟩
        rw [Progress.phase_of_supervised (g := g.setSubmission id q') hs,
          ← Progress.phase_of_supervised hs]
        exact (h.keep ha).fits
    · exact (h.keep (Action.not_affects_of_ne (moves.key hk))).congr (by simp [hk]) rfl
  | @supervision key c _ _ q q' hq moves =>
    by_cases hk : id = key
    · subst hk
      refine ⟨fun o w _ => h.supervised _ q hq, ?_⟩
      rw [Progress.phase_setSupervision]
      exact moves.fits nodup (Progress.phase_of_supervised hq ▸ h.fits)
    · exact (h.keep (Action.not_affects_of_ne (moves.key hk))).congr rfl (by simp [hk])
  | shutdown hq moves =>
    exact (h.keep (by cases moves <;> exact False.elim)).congr rfl rfl

theorem Accounted.call (h : Accounted es m g id) (lacks : g.Lacks role)
    (worker : ∀ key c, role = .supervision key c → m.workers.has key = true) :
    Accounted es m (g.enter role) id := by
  cases role with
  | submission key =>
    by_cases hk : id = key
    · subst hk
      have hs : g.supervision id = none := by
        cases hs : g.supervision id with
        | none => rfl
        | some supervised =>
          obtain ⟨q, hq, -⟩ := h.supervised _ _ hs
          cases hq.symm.trans lacks
      refine ⟨fun o w how => by simp [Progress.enter, hs] at how, ?_⟩
      have hq : g.submission id = none := lacks
      have idle : g.phase id = .idle := by simp [Progress.phase, hs, hq]
      rw [Progress.enter, Progress.phase_setSubmission hs]
      have fits := h.fits
      rwa [idle] at fits
    · exact h.congr (by simp [Progress.enter, hk]) rfl
  | supervision key c =>
    by_cases hk : id = key
    · subst hk
      have hs : g.supervision id = none := lacks
      have hw : m.workers.has id = true := worker id c rfl
      -- only a launched worker is supervised, so its task is in the phase where one is alive
      have alive : g.phase id = .alive := h.fits.alive hw
      refine ⟨fun o w _ => ?_, ?_⟩
      · cases hq : g.submission id with
        | none => simp [Progress.phase, hs, hq] at alive
        | some q => exact ⟨q, hq, Progress.phase_of_submitted hs hq ▸ alive⟩
      · rw [Progress.enter, Progress.phase_setSupervision]
        have fits := h.fits
        rwa [alive] at fits
    · exact h.congr rfl (by simp [Progress.enter, hk])
  | shutdown => exact h.congr rfl rfl
  | _ => exact h

theorem Tracked.accounted (h : Tracked config es s g) (id : String) :
    Accounted es s.manager g id := by
  induction h with
  | start started =>
    obtain ⟨files, rfl⟩ := start_ok started
    exact ⟨by simp, by simp [Progress.phase, Phase.Fits, Store.has, timesGiven]⟩
  | call role _ admitted lacks ih =>
    exact ih.call lacks fun key c hr => admitted.2 key c hr
  | act tracked moves _ ih => exact ih.act moves tracked.nodup_slots
  | elapse _ _ ih => exact ⟨ih.supervised, ih.fits⟩
  | write _ _ ih => exact ⟨ih.supervised, ih.fits⟩

def Launched (id : String) (es : List Event) : Prop := ∃ e ∈ es, ∃ job, e.action = .launch id job

/-- Whether the worker of a task has ended under its supervision. -/
def Reaped (id : String) (es : List Event) : Prop := ∃ e ∈ es, e.action = .reap id

theorem Tracked.worker_of_launched (h : Tracked config es s g) (launched : Launched id es)
    (alive : ¬Reaped id es) : s.manager.workers.has id = true := by
  induction h with
  | start =>
    obtain ⟨e, he, -⟩ := launched
    cases he
  | call _ _ _ _ ih => exact ih launched alive
  | @act es m before after role action rest _ _ _ _ _ ih =>
    have hr : action ≠ .reap id := fun hr => alive ⟨_, List.mem_concat_self, hr⟩
    obtain ⟨e, he, job, hl⟩ := launched
    rcases List.mem_append.mp he with he | he
    · refine has_worker_of_apply (ih ⟨e, he, job, hl⟩ fun ⟨e, he, h⟩ => alive ⟨e, ?_, h⟩) hr
      exact List.mem_append_left _ he
    · cases List.mem_singleton.mp he
      obtain rfl : action = .launch id job := hl
      simp [Action.apply, Manager.launch]
  | elapse _ _ ih => exact ih launched alive
  | write _ _ ih => exact ih launched alive

theorem Tracked.slot_of_worker (h : Tracked config es s g)
    (worker : s.manager.workers.has id = true) : id ∈ s.manager.registry.slots := by
  have fits := (h.accounted id).fits
  have alive : g.phase id = .alive := fits.alive worker
  rw [alive] at fits
  exact fits.1

theorem Tracked.workers_le (h : Tracked config es s g) :
    s.manager.workers.length ≤ config.maxConcurrency := by
  have held : s.manager.workers.ids ⊆ s.manager.registry.slots := fun id hid =>
    h.slot_of_worker (Store.has_iff.mpr (Store.mem_ids.mp hid))
  calc s.manager.workers.length = s.manager.workers.ids.length := by simp [Store.ids]
    _ ≤ s.manager.registry.slots.length := (List.Nodup.subperm h.nodup_workers held).length_le
    _ ≤ config.maxConcurrency := by
      have := h.size
      unfold System.slotsTaken at this
      omega

def Role.Submits (id : String) : Role → Prop
  | .submission key .. => key = id
  | _ => False

/-- Whether a submission asks for a slot in an event when none is left. -/
def Event.Exhausts (config : Config) (id : String) (e : Event) : Prop :=
  e.role.Submits id ∧ e.action = .acquire ∧ e.before.slotsTaken = config.maxConcurrency

def Submission.exhausted (config : Config) : Submission :=
  .answered (.error (.resourceExhausted config.maxConcurrency))

theorem Submission.Moves.not_exhausted {q q' : Submission} {b : action.Answer}
    (moves : q.Moves id action b q') (config : Config) : q ≠ .exhausted config := by
  cases moves <;> simp [Submission.exhausted]

/-- Only the request for a slot leads to the refusal, and only if no slot is free. -/
theorem Submission.Moves.exhausted {q q' : Submission} {b : action.Answer}
    (hb : (action.apply m).2 = b) (moves : q.Moves id action b q') :
    q' = .exhausted m.config ↔ action = .acquire ∧ m.registry.free = 0 := by
  cases moves with
  | exhaust e =>
    have answer : m.acquire.2 = .error e := hb
    rw [acquire_snd] at answer
    split at answer
    · next full =>
      cases answer
      simp [Submission.exhausted, full]
    · cases answer
  | acquire =>
    have answer : m.acquire.2 = .ok () := hb
    rw [acquire_snd] at answer
    split at answer
    · cases answer
    · next free => simp [Submission.exhausted, free]
  | _ => simp [Submission.exhausted]

theorem Tracked.exhausted (h : Tracked config es s g) (id : String) :
    g.submission id = some (.exhausted config) ↔ ∃ e ∈ es, e.Exhausts config id := by
  induction h with
  | start => simp
  | call role _ _ lacks ih =>
    rw [← ih]
    cases role with
    | submission key =>
      by_cases hk : id = key
      · subst hk
        simp [Progress.enter, show _ = none from lacks, Submission.exhausted]
      · simp [Progress.enter, hk]
    | _ => rfl
  | @act es m before after role action rest g g' tracked moves _ ih =>
    have add (e : Event) : (∃ e' ∈ es ++ [e], e'.Exhausts config id) ↔
        g.submission id = some (.exhausted config) ∨ e.Exhausts config id := by
      simp [ih, or_and_right, exists_or]
    rw [add]
    have other (h : ¬role.Submits id) (hq : g'.submission id = g.submission id) :
        g'.submission id = some (.exhausted config) ↔
          g.submission id = some (.exhausted config) ∨ Event.Exhausts config id
            ⟨⟨m, before ++ ⟨role, .take action rest⟩ :: after⟩, role, action⟩ := by
      simp [hq, Event.Exhausts, h]
    generalize hb : (action.apply m).2 = b at moves
    cases moves with
    | free hr _ => exact other (by cases role <;> first | exact False.elim | cases hr) rfl
    | @submission key _ _ _ _ _ q q' hq moves =>
      by_cases hk : id = key
      · subst hk
        -- no slot is free just when all are taken
        have size := tracked.size
        have full : m.registry.free = 0 ↔
            System.slotsTaken ⟨m, before ++ ⟨_, .take action rest⟩ :: after⟩ =
              config.maxConcurrency := by
          simp only at size
          omega
        have refused := moves.exhausted hb
        rw [show m.config = config from tracked.config_eq] at refused
        simp [hq, refused, full, moves.not_exhausted config, Event.Exhausts, Role.Submits]
      · exact other (Ne.symm hk) (by simp [hk])
    | supervision _ _ => exact other False.elim rfl
    | shutdown _ _ => exact other False.elim rfl
  | elapse _ _ ih => exact ih
  | write _ _ ih => exact ih

/-- Every worker that is not reaped has a slot; submissions find none just if all are taken; a task
gives its slot back exactly once. -/
theorem slots_bound_workers (h : Run config es s) :
    (∀ id, Launched id es → ¬Reaped id es → s.manager.workers.has id = true) ∧
    (∀ id, s.manager.workers.has id = true → id ∈ s.manager.registry.slots) ∧
    s.manager.workers.length ≤ config.maxConcurrency ∧
    s.manager.registry.free + s.slotsTaken = config.maxConcurrency ∧
    (∀ id kind payload launchError? reply,
      ⟨.submission id kind payload launchError?, .done reply⟩ ∈ s.threads →
      (reply = .error (.resourceExhausted config.maxConcurrency) ↔
        ∃ e ∈ es, e.Exhausts config id)) ∧
    ∀ id course, ⟨.supervision id course, .done ()⟩ ∈ s.threads →
      id ∉ s.manager.registry.slots ∧ timesGiven id es = 1 := by
  obtain ⟨g, tracked⟩ := h.tracked
  refine ⟨fun id => tracked.worker_of_launched, fun id => tracked.slot_of_worker,
    tracked.workers_le, tracked.size, ?_, ?_⟩
  · intro id kind payload launchError? reply mem
    obtain ⟨q, hq, rfl⟩ := tracked.describes.at_place _ mem
    rw [← tracked.exhausted id, hq, Submission.exhausted]
    simp
  · intro id course mem
    obtain ⟨q, hq, rfl⟩ := tracked.describes.at_place _ mem
    have fits := (tracked.accounted id).fits
    rw [Progress.phase_of_supervised hq] at fits
    exact ⟨fits.1, fits.2.2⟩

def crash : Course := ⟨0, [], .signal 9, []⟩

/-- A worker has the only slot, a second submission asks for one, and the worker crashes. -/
def crashed : List Event × System :=
  let a := ((⟨idle, []⟩ : System).call (small "a")).follow [0, 0, 0, 0, 0, 0, 0]
  let b := (a.2.call (small "b")).follow [1, 1]
  let c := (b.2.call (.supervision "a" crash)).follow [2, 2, 2, 2, 2]
  ((a.1 ++ b.1) ++ c.1, c.2)

theorem run_crashed : Run oneSlot crashed.1 crashed.2 := by
  have a := (run_idle.callSmall "a" [] rfl (by simp)).follow [0, 0, 0, 0, 0, 0, 0]
  have b := (a.callSmall "b" [small "a"] rfl (by simp [Role.Beside, small])).follow [1, 1]
  refine (b.call (.supervision "a" crash) ?_).follow [2, 2, 2, 2, 2]
  refine System.admits_of_roles [small "a", small "b"] rfl (by simp [Role.Beside, small]) ?_
  rintro id c ⟨⟩
  rfl

/-- The second submission is refused; the slot of the crashed worker is given back once. -/
theorem crashed_gives_back : Run oneSlot crashed.1 crashed.2 ∧
    (∃ e ∈ crashed.1, e.Exhausts oneSlot "b") ∧
    "a" ∉ crashed.2.manager.registry.slots ∧ timesGiven "a" crashed.1 = 1 := by
  have b : ⟨small "b", .done (.error (.resourceExhausted 1))⟩ ∈ crashed.2.threads :=
    List.mem_cons_of_mem _ List.mem_cons_self
  have c : ⟨.supervision "a" crash, .done ()⟩ ∈ crashed.2.threads :=
    List.mem_cons_of_mem _ (List.mem_cons_of_mem _ List.mem_cons_self)
  obtain ⟨-, -, -, -, refused, left⟩ := slots_bound_workers run_crashed
  exact ⟨run_crashed, (refused "b" _ _ _ _ b).mp rfl, left "a" crash c⟩

end TaskFlow.Manager
