import Mathlib.Logic.Function.Basic
import TaskFlow.Proofs.Manager.Effects
import TaskFlow.Proofs.Manager.Protocol

namespace TaskFlow.Manager

structure Progress where
  submission : String → Option Submission := fun _ => none
  supervision : String → Option (Outcome × Supervising) := fun _ => none
  shutdown : Option Closing := none

/-- Whether a thread is none of those whose progress is followed. -/
def Role.IsFree : Role → Prop
  | .submission .. | .supervision .. | .shutdown => False
  | _ => True

namespace Progress

def setSubmission (g : Progress) (id : String) (q : Submission) : Progress :=
  { g with submission := Function.update g.submission id (some q) }

/-- The progress with a supervision at a place, its worker coming to an outcome. -/
def setSupervision (g : Progress) (id : String) (o : Outcome) (q : Supervising) : Progress :=
  { g with supervision := Function.update g.supervision id (some (o, q)) }

def setShutdown (g : Progress) (q : Closing) : Progress := { g with shutdown := some q }

section Set

variable {g : Progress} {id key : String} {q : Submission} {o : Outcome} {w : Supervising}
  {c : Closing}

@[simp] theorem submission_setSubmission :
    (g.setSubmission key q).submission id = if id = key then some q else g.submission id := by
  simp [setSubmission, Function.update_apply]

@[simp] theorem supervision_setSubmission :
    (g.setSubmission key q).supervision = g.supervision := rfl

@[simp] theorem shutdown_setSubmission : (g.setSubmission key q).shutdown = g.shutdown := rfl

@[simp] theorem submission_setSupervision :
    (g.setSupervision key o w).submission = g.submission := rfl

@[simp] theorem supervision_setSupervision : (g.setSupervision key o w).supervision id =
    if id = key then some (o, w) else g.supervision id := by
  simp [setSupervision, Function.update_apply]

@[simp] theorem shutdown_setSupervision : (g.setSupervision key o w).shutdown = g.shutdown := rfl

@[simp] theorem submission_setShutdown : (g.setShutdown c).submission = g.submission := rfl

@[simp] theorem supervision_setShutdown : (g.setShutdown c).supervision = g.supervision := rfl

@[simp] theorem shutdown_setShutdown : (g.setShutdown c).shutdown = some c := rfl

end Set

def enter (g : Progress) : Role → Progress
  | .submission id .. => g.setSubmission id .asking
  | .supervision id c => g.setSupervision id c.outcome .watching
  | .shutdown => g.setShutdown .closing
  | _ => g

def Lacks (g : Progress) : Role → Prop
  | .submission id .. => g.submission id = none
  | .supervision id _ => g.supervision id = none
  | .shutdown => g.shutdown = none
  | _ => True

/-- How the progress changes when a thread takes an action. -/
inductive Moves (g : Progress) : Role → (act : Action) → act.Answer → Progress → Prop
  | free {role : Role} {act : Action} {b : act.Answer} :
    role.IsFree → act.IsFree → Moves g role act b g
  | submission {id : String} {kind : JobKind} {payload : Json} {launchError? : Option FileError}
    {act : Action} {b : act.Answer} {q q' : Submission} :
    g.submission id = some q → q.Moves id act b q' →
    Moves g (.submission id kind payload launchError?) act b (g.setSubmission id q')
  | supervision {id : String} {c : Course} {act : Action} {b : act.Answer} {q q' : Supervising} :
    g.supervision id = some (c.outcome, q) → q.Moves id c.outcome act b q' →
    Moves g (.supervision id c) act b (g.setSupervision id c.outcome q')
  | shutdown {act : Action} {b : act.Answer} {q q' : Closing} :
    g.shutdown = some q → q.Moves act b q' →
    Moves g .shutdown act b (g.setShutdown q')

end Progress

def Thread.At (g : Progress) : Thread → Prop
  | ⟨.submission id .., rest⟩ =>
    ∃ q, g.submission id = some q ∧ rest.Follows (Submission.Moves id) Submission.Ends q
  | ⟨.supervision id c, rest⟩ =>
    ∃ q, g.supervision id = some (c.outcome, q) ∧
      rest.Follows (Supervising.Moves id c.outcome) (fun q _ => q = .left) q
  | ⟨.shutdown, rest⟩ =>
    ∃ q, g.shutdown = some q ∧ rest.Follows Closing.Moves (fun q _ => q = .sending []) q
  | ⟨_, rest⟩ => rest.Uses Action.IsFree

variable {config : Config} {es : List Event} {s : System} {g g' : Progress} {role : Role}
  {t : Thread}

theorem Role.Beside.symm {r r' : Role} (h : r.Beside r') : r'.Beside r := by
  cases r with
  | submission id => cases r' with
    | submission key => exact Ne.symm h
    | _ => trivial
  | supervision id c => cases r' with
    | supervision key d => exact Ne.symm h
    | _ => trivial
  | shutdown => cases r' with
    | shutdown => exact h
    | _ => trivial
  | _ => cases r' <;> trivial

theorem Progress.Lacks.enter {r : Role} (h : g.Lacks r) (beside : role.Beside r) :
    (g.enter role).Lacks r := by
  cases role with
  | submission id => cases r with
    | submission key => exact (Function.update_of_ne (Ne.symm beside) ..).trans h
    | _ => exact h
  | supervision id c => cases r with
    | supervision key d => exact (Function.update_of_ne (Ne.symm beside) ..).trans h
    | _ => exact h
  | shutdown => cases r with
    | shutdown => exact beside.elim
    | _ => exact h
  | _ => exact h

theorem Progress.Moves.lacks {r : Role} {action : Action} {b : action.Answer}
    (h : g.Moves role action b g') (lacks : g.Lacks r) (beside : role.Beside r) : g'.Lacks r := by
  cases h with
  | free => exact lacks
  | submission => cases r with
    | submission key => exact (Function.update_of_ne (Ne.symm beside) ..).trans lacks
    | _ => exact lacks
  | supervision => cases r with
    | supervision key d => exact (Function.update_of_ne (Ne.symm beside) ..).trans lacks
    | _ => exact lacks
  | shutdown => cases r with
    | shutdown => exact beside.elim
    | _ => exact lacks

theorem Progress.submission_enter {id : String} {q : Submission} (lacks : g.Lacks role)
    (hq : g.submission id = some q) : (g.enter role).submission id = some q := by
  cases role with
  | submission key =>
    have other : id ≠ key := by
      rintro rfl
      cases hq.symm.trans lacks
    simpa [Progress.enter, other] using hq
  | _ => exact hq

theorem Thread.at_start (g : Progress) (role : Role) : (start role).At (g.enter role) := by
  cases role with
  | submission id kind payload e =>
    exact ⟨_, by simp [Progress.enter], follows_submit id kind payload e⟩
  | supervision id c => exact ⟨_, by simp [Progress.enter], follows_supervise id c⟩
  | shutdown => exact ⟨_, rfl, follows_beginShutdown⟩
  | status id => exact (uses_status id).mono fun _ => Action.Spares.isFree
  | list => exact ⟨trivial, fun _ => trivial⟩
  | result id => exact (uses_result id).mono fun _ => Action.Spares.isFree
  | memory id => exact ⟨trivial, fun _ => trivial⟩
  | cancellation id => exact (uses_cancel id).mono fun _ => Action.Spares.isFree
  | deletion id => exact uses_delete id
  | acknowledgement id => exact (uses_acknowledge id).mono fun _ => Action.Spares.isFree
  | sweep ttl => exact uses_sweep ttl
  | sampling id bytes => exact ⟨trivial, fun _ => trivial⟩

theorem Thread.At.enter (h : t.At g) (beside : t.role.Beside role) : t.At (g.enter role) := by
  obtain ⟨r, rest⟩ := t
  cases role with
  | submission id => cases r with
    | submission key =>
      obtain ⟨q, hq, follows⟩ := h
      exact ⟨q, (Function.update_of_ne beside ..).trans hq, follows⟩
    | _ => exact h
  | supervision id c => cases r with
    | supervision key d =>
      obtain ⟨q, hq, follows⟩ := h
      exact ⟨q, (Function.update_of_ne beside ..).trans hq, follows⟩
    | _ => exact h
  | shutdown => cases r with
    | shutdown => exact beside.elim
    | _ => exact h
  | _ => exact h

theorem Progress.Moves.at_other {action : Action} {b : action.Answer}
    (h : g.Moves role action b g') (at_place : t.At g) (beside : t.role.Beside role) :
    t.At g' := by
  obtain ⟨r, rest⟩ := t
  cases h with
  | free => exact at_place
  | submission => cases r with
    | submission key =>
      obtain ⟨q, hq, follows⟩ := at_place
      exact ⟨q, (Function.update_of_ne beside ..).trans hq, follows⟩
    | _ => exact at_place
  | supervision => cases r with
    | supervision key d =>
      obtain ⟨q, hq, follows⟩ := at_place
      exact ⟨q, (Function.update_of_ne beside ..).trans hq, follows⟩
    | _ => exact at_place
  | shutdown => cases r with
    | shutdown => exact beside.elim
    | _ => exact at_place

theorem Thread.At.act {action : Action} {rest : action.Answer → Op role.Reply}
    (h : At g ⟨role, .take action rest⟩) (b : action.Answer) :
    ∃ g', g.Moves role action b g' ∧ At g' ⟨role, rest b⟩ := by
  cases role with
  | submission id kind payload e =>
    obtain ⟨q, hq, follows⟩ := h
    obtain ⟨q', moves, follows⟩ := follows b
    exact ⟨_, .submission hq moves, q', by simp, follows⟩
  | supervision id c =>
    obtain ⟨q, hq, follows⟩ := h
    obtain ⟨q', moves, follows⟩ := follows b
    exact ⟨_, .supervision hq moves, q', by simp, follows⟩
  | shutdown =>
    obtain ⟨q, hq, follows⟩ := h
    obtain ⟨q', moves, follows⟩ := follows b
    exact ⟨_, .shutdown hq moves, q', rfl, follows⟩
  | _ => exact ⟨g, .free trivial h.1, h.2 b⟩

structure Progress.Describes (g : Progress) (ts : List Thread) : Prop where
  at_place : ∀ t ∈ ts, t.At g
  beside : (ts.map Thread.role).Pairwise Role.Beside
  has_thread : ∀ role, (∀ t ∈ ts, t.role.Beside role) → g.Lacks role

inductive Tracked (config : Config) : List Event → System → Progress → Prop
  | start {files : FileSystem} {now : Instant} {m : Manager} :
    Manager.start config files now = .ok m → Tracked config [] ⟨m, []⟩ {}
  | call {es : List Event} {s : System} {g : Progress} (role : Role) :
    -- that the thread is a new one follows from the rest, but is what inductions need
    Tracked config es s g → s.Admits role → g.Lacks role →
    Tracked config es { s with threads := s.threads ++ [.start role] } (g.enter role)
  | act {es : List Event} {m : Manager} {before after : List Thread} {role : Role}
    {action : Action} {rest : action.Answer → Op role.Reply} {g g' : Progress} :
    Tracked config es ⟨m, before ++ ⟨role, .take action rest⟩ :: after⟩ g →
    g.Moves role action (action.apply m).2 g' →
    g'.Describes (before ++ ⟨role, rest (action.apply m).2⟩ :: after) →
    Tracked config (es ++ [⟨⟨m, before ++ ⟨role, .take action rest⟩ :: after⟩, role, action⟩])
      ⟨(action.apply m).1, before ++ ⟨role, rest (action.apply m).2⟩ :: after⟩ g'
  | elapse {es : List Event} {s : System} {g : Progress} (now : Instant) :
    Tracked config es s g →
    Tracked config es { s with manager := { s.manager with now } } g
  | write {es : List Event} {s : System} {g : Progress} (files : FileSystem) :
    Tracked config es s g →
    Tracked config es { s with manager := { s.manager with files } } g

theorem start_ok {m : Manager} {files : FileSystem} {now : Instant}
    (h : Manager.start config files now = .ok m) : ∃ files, m =
      { config, now, files, registry := { free := config.maxConcurrency },
        cache := { maxBytes := config.cacheMaxBytes },
        sweeping := config.taskTtl.any (· ≤ longestTtl) } := by
  unfold Manager.start at h
  split at h
  · cases h
  · cases h
    exact ⟨_, rfl⟩

instance Action.nonempty_answer (act : Action) : Nonempty act.Answer := by
  cases act <;> first | exact ⟨default⟩ | exact ⟨.ok default⟩ | exact ⟨.error (.notFound "")⟩

theorem Progress.describes_nil : ({} : Progress).Describes [] where
  at_place := by simp
  beside := .nil
  has_thread role _ := by cases role <;> simp [Lacks]

theorem Progress.Describes.call {ts : List Thread} (h : g.Describes ts)
    (hb : ∀ t ∈ ts, t.role.Beside role) : (g.enter role).Describes (ts ++ [.start role]) where
  at_place t ht := by
    rcases List.mem_append.mp ht with ht | ht
    · exact (h.at_place t ht).enter (hb t ht)
    · rw [List.mem_singleton.mp ht]
      exact Thread.at_start g role
  beside := by
    rw [List.map_append, List.pairwise_append]
    refine ⟨h.beside, List.pairwise_singleton .., ?_⟩
    simpa [Thread.start] using hb
  has_thread r hr := by
    have lacks := h.has_thread r fun t ht => hr t (by simp [ht])
    exact lacks.enter (hr (.start role) (by simp))

theorem Tracked.describes (h : Tracked config es s g) : g.Describes s.threads := by
  induction h with
  | start => exact Progress.describes_nil
  | call role _ admitted _ ih => exact ih.call admitted.1
  | act _ _ describes _ => exact describes
  | elapse _ _ ih => exact ih
  | write _ _ ih => exact ih

theorem Progress.Describes.submission_thread {ts : List Thread} {id : String} {q : Submission}
    (h : g.Describes ts) (hq : g.submission id = some q) :
    ∃ kind payload launchError? rest, ⟨.submission id kind payload launchError?, rest⟩ ∈ ts ∧
      rest.Follows (Submission.Moves id) Submission.Ends q := by
  by_contra missing
  -- whether a submission has started goes by its identifier alone, so any job will do here
  have lacks : g.Lacks (.submission id .execute .null none) := h.has_thread _ fun t ht => by
    obtain ⟨role, rest⟩ := t
    cases role with
    | submission key kind payload e =>
      rintro rfl
      obtain ⟨q', hq', follows⟩ := h.at_place _ ht
      cases hq.symm.trans hq'
      exact missing ⟨kind, payload, e, rest, ht, follows⟩
    | _ => trivial
  cases hq.symm.trans lacks

theorem Progress.Describes.supervision_thread {ts : List Thread} {id : String} {o : Outcome}
    {q : Supervising} (h : g.Describes ts) (hq : g.supervision id = some (o, q)) :
    ∃ c rest, ⟨.supervision id c, rest⟩ ∈ ts ∧
      rest.Follows (Supervising.Moves id c.outcome) (fun q _ => q = .left) q := by
  by_contra missing
  have lacks : g.Lacks (.supervision id ⟨0, [], .code 0, []⟩) := h.has_thread _ fun t ht => by
    obtain ⟨role, rest⟩ := t
    cases role with
    | supervision key c =>
      rintro rfl
      obtain ⟨q', hq', follows⟩ := h.at_place _ ht
      cases hq.symm.trans hq'
      exact missing ⟨c, rest, ht, follows⟩
    | _ => trivial
  cases hq.symm.trans lacks

theorem mem_middle {t u : Thread} {before after : List Thread} :
    u ∈ before ++ t :: after ↔ u = t ∨ u ∈ before ++ after :=
  List.perm_middle.mem_iff.trans List.mem_cons

theorem Progress.Describes.beside_of_mem {before after : List Thread} {t u : Thread}
    (h : g.Describes (before ++ t :: after)) (hu : u ∈ before ++ after) :
    u.role.Beside t.role := by
  have := h.beside
  rw [List.map_append, List.map_cons, List.pairwise_append, List.pairwise_cons] at this
  rcases List.mem_append.mp hu with hu | hu
  · exact this.2.2 _ (List.mem_map_of_mem hu) _ (by simp)
  · exact (this.2.1.1 _ (List.mem_map_of_mem hu)).symm

theorem Progress.Describes.act {before after : List Thread} {action : Action}
    {rest : action.Answer → Op role.Reply} {b : action.Answer}
    (h : g.Describes (before ++ ⟨role, .take action rest⟩ :: after)) :
    ∃ g', g.Moves role action b g' ∧ g'.Describes (before ++ ⟨role, rest b⟩ :: after) := by
  obtain ⟨g', moves, at_place⟩ := (h.at_place ⟨role, .take action rest⟩ (by simp)).act b
  have others (t : Thread) (ht : t ∈ before ++ after) : t.At g' := by
    have beside : t.role.Beside role := h.beside_of_mem ht
    exact moves.at_other (h.at_place t (mem_middle.mpr (.inr ht))) beside
  refine ⟨g', moves, ?_, by simpa using h.beside, fun r hr => ?_⟩
  -- the thread that took the action is at its next place, the others are where they were
  · intro t ht
    rcases mem_middle.mp ht with rfl | ht
    · exact at_place
    · exact others t ht
  · have beside : role.Beside r := hr ⟨role, rest b⟩ (by simp)
    refine moves.lacks (h.has_thread r fun t ht => ?_) beside
    rcases mem_middle.mp ht with rfl | ht
    · exact beside
    · exact hr t (mem_middle.mpr (.inr ht))

/-- What holds of a manager that starts, and is kept by every action, by time and by the files that
workers write, holds throughout. -/
theorem Tracked.always {I : Manager → Prop} (h : Tracked config es s g)
    (start : ∀ {m files now}, Manager.start config files now = .ok m → I m)
    (act : ∀ {m} (action : Action), I m → I (action.apply m).1)
    (elapse : ∀ {m : Manager} now, I m → I { m with now })
    (write : ∀ {m : Manager} files, I m → I { m with files }) : I s.manager := by
  induction h with
  | start started => exact start started
  | call _ _ _ _ ih => exact ih
  | act _ _ _ ih => exact act _ ih
  | elapse now _ ih => exact elapse now ih
  | write files _ ih => exact write files ih

theorem Tracked.config_eq (h : Tracked config es s g) : s.manager.config = config :=
  h.always (I := fun m => m.config = config)
    (fun started => by obtain ⟨files, rfl⟩ := start_ok started; rfl)
    (fun _ same => config_apply.trans same) (fun _ same => same) fun _ same => same

theorem Tracked.nodup_slots (h : Tracked config es s g) : s.manager.registry.slots.Nodup :=
  h.always (I := fun m => m.registry.slots.Nodup)
    (fun started => by obtain ⟨files, rfl⟩ := start_ok started; exact .nil)
    (fun _ nodup => nodup_slots_apply nodup) (fun _ nodup => nodup) fun _ nodup => nodup

theorem Tracked.nodup_workers (h : Tracked config es s g) : s.manager.workers.ids.Nodup :=
  h.always (I := fun m => m.workers.ids.Nodup)
    (fun started => by obtain ⟨files, rfl⟩ := start_ok started; exact .nil)
    (fun _ nodup => nodup_workers_apply nodup) (fun _ nodup => nodup) fun _ nodup => nodup

theorem Tracked.keyed (h : Tracked config es s g) : s.manager.registry.Keyed :=
  h.always (I := fun m => m.registry.Keyed)
    (fun started => by obtain ⟨files, rfl⟩ := start_ok started; exact fun _ _ h => nomatch h)
    (fun _ keyed => keyed_apply keyed) (fun _ keyed => keyed) fun _ keyed => keyed

theorem Run.tracked (h : Run config es s) : ∃ g, Tracked config es s g := by
  -- the invariant that carries the induction is that progress describes the threads
  induction h with
  | start h => exact ⟨{}, .start h⟩
  | call role _ admitted ih =>
    obtain ⟨g, h⟩ := ih
    exact ⟨_, .call role h admitted (h.describes.has_thread role admitted.1)⟩
  | act _ ih =>
    obtain ⟨g, h⟩ := ih
    obtain ⟨g', moves, describes⟩ := h.describes.act
    exact ⟨g', .act h moves describes⟩
  | elapse now _ ih =>
    obtain ⟨g, h⟩ := ih
    exact ⟨g, .elapse now h⟩
  | write files _ ih =>
    obtain ⟨g, h⟩ := ih
    exact ⟨g, .write files h⟩

theorem Run.reached (h : Run config es s) : ∀ e ∈ es, ∃ es', Run config es' e.before := by
  induction h with
  | start => simp
  | call _ _ _ ih => exact ih
  | act run ih =>
    intro e he
    rcases List.mem_append.mp he with he | he
    · exact ih e he
    · obtain rfl := List.mem_singleton.mp he
      exact ⟨_, run⟩
  | elapse _ _ ih => exact ih
  | write _ _ ih => exact ih

theorem Run.uses {allowed : Action → Prop} (h : Run config es s)
    (uses : role.procedure.Uses allowed) :
    (∀ e ∈ es, e.role = role → allowed e.action) ∧
      ∀ rest, ⟨role, rest⟩ ∈ s.threads → rest.Uses allowed := by
  induction h with
  | start => exact ⟨by simp, by simp⟩
  | call r _ _ ih =>
    refine ⟨ih.1, fun rest mem => ?_⟩
    rcases List.mem_append.mp mem with mem | mem
    · exact ih.2 rest mem
    · cases List.mem_singleton.mp mem
      exact uses
  | @act es m before after r action rest _ ih =>
    refine ⟨fun e he same => ?_, fun left mem => ?_⟩
    · rcases List.mem_append.mp he with he | he
      · exact ih.1 e he same
      · obtain rfl := List.mem_singleton.mp he
        subst same
        exact (ih.2 _ (mem_middle.mpr (.inl rfl))).1
    · rcases mem_middle.mp mem with same | mem
      · cases same
        exact (ih.2 _ (mem_middle.mpr (.inl rfl))).2 _
      · exact ih.2 left (mem_middle.mpr (.inr mem))
  | elapse _ _ ih => exact ih
  | write _ _ ih => exact ih

end TaskFlow.Manager
