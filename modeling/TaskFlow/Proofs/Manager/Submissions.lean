import TaskFlow.Proofs.Job.Codec
import TaskFlow.Proofs.Manager.Slots

namespace TaskFlow.Manager

variable {m : Manager} {id : String} {kind : JobKind} {payload : Json} {job : Job}
  {launchError? : Option FileError} {e : FileError}

structure Unused (m : Manager) (id : String) : Prop where
  record : m.registry.tasks.get? id = none
  slot : id ∉ m.registry.slots
  supervisor : id ∉ m.supervisors

/-- Why a submission is refused. What is looked at later counts only if nothing was wrong before. -/
inductive Refusal (m : Manager) (kind : JobKind) (payload : Json)
    (launchError? : Option FileError) : TaskError → Prop
  | shuttingDown (closed : m.accepting = false) :
    Refusal m kind payload launchError? .shuttingDown
  | invalidPayload {e : PayloadError} (opened : m.accepting = true)
    (invalid : Job.parse kind payload = .error e) :
    Refusal m kind payload launchError? (.invalidPayload e)
  | resourceExhausted {job : Job} (opened : m.accepting = true)
    (valid : Job.parse kind payload = .ok job) (full : m.registry.free = 0) :
    Refusal m kind payload launchError? (.resourceExhausted m.config.maxConcurrency)
  | launch {job : Job} {e : FileError} (opened : m.accepting = true)
    (valid : Job.parse kind payload = .ok job) (free : 0 < m.registry.free)
    (failed : launchError? = some e) :
    Refusal m kind payload launchError? (.launch e.text)

/-- What an accepted submission adds, and what it leaves as it was. -/
structure Adds (m : Manager) (id : String) (kind : JobKind) (job : Job) (m' : Manager) : Prop where
  record : m'.registry.tasks = (id, ⟨.queued id kind m.now, []⟩) :: m.registry.tasks
  slot : m'.registry.slots = id :: m.registry.slots
  permit : m'.registry.free + 1 = m.registry.free
  supervisor : m'.supervisors = id :: m.supervisors
  worker : m'.workers = m.workers.insert id { assignment := m.assignment id job }
  cache : m'.cache = m.cache
  files : m'.files = m.files

def reserve (m : Manager) : Manager :=
  { m with registry := { m.registry with free := m.registry.free - 1 } }

def enlist (m : Manager) (id : String) (kind : JobKind) : Manager :=
  { m with registry :=
    { free := m.registry.free - 1
      tasks := (id, ⟨.queued id kind m.now, []⟩) :: m.registry.tasks
      slots := id :: m.registry.slots } }

theorem apply_record (unused : m.Unused id) :
    ((Action.record id kind).apply m.reserve).1 = m.enlist id kind := by
  have slot : m.registry.slots.contains id = false := by simpa using unused.slot
  simp only [Action.apply, reserve, Registry.insert, Registry.dropSlot, TaskInfo.queued, slot,
    if_true, Bool.false_eq_true, if_false, Store.insert, Store.erase_of_absent unused.record,
    enlist]

theorem erase_enlist (unused : m.Unused id) :
    (m.enlist id kind).registry.tasks.erase id = m.registry.tasks := by
  have : (m.enlist id kind).registry.tasks.erase id = m.registry.tasks.erase id := by
    simp [enlist, Store.erase]
  rw [this, Store.erase_of_absent unused.record]

theorem withdraw_enlist (unused : m.Unused id) (free : 0 < m.registry.free) :
    ((Action.release id).apply ((Action.forget id).apply (m.enlist id kind)).1).1 = m := by
  have permit : m.registry.free - 1 + 1 = m.registry.free := Nat.sub_add_cancel free
  simp only [Action.apply, onRegistry, Registry.remove, Registry.releaseSlot, erase_enlist unused]
  simp [enlist, Registry.dropSlot, permit]

theorem run_settle {t : TaskInfo} (opened : m.accepting = true)
    (known : m.registry.get? id = some t) (active : t.status.isTerminal = false) :
    (settle id).run m = (m, ()) := by
  have found : (info? id).run m = (m, some t) := Prod.ext rfl known
  rw [settle, Op.run_bind, Op.run_perform]
  simp only [Action.apply, opened, Bool.not_true, Bool.false_eq_true, if_false, Op.run_bind]
  rw [found]
  simp only [Option.all_some, active, Bool.or_self, Bool.false_eq_true, if_false]
  rfl

theorem run_enroll_failed (unused : m.Unused id) (free : 0 < m.registry.free) :
    (enroll id job (some e)).run m.reserve = (m, .error (.launch e.text)) := by
  have undone : ((Action.release id).apply ((Action.forget id).apply
      (m.enlist id job.kind)).1).1 = m := withdraw_enlist unused free
  rw [← apply_record unused] at undone
  exact Prod.ext undone rfl

theorem run_enroll_launched (unused : m.Unused id) (opened : m.accepting = true) :
    (enroll id job none).run m.reserve =
      ({ (m.enlist id job.kind).launch id job with supervisors := id :: m.supervisors },
        .ok id) := by
  set m' : Manager :=
    { (m.enlist id job.kind).launch id job with supervisors := id :: m.supervisors }
  have known : m'.registry.get? id = some (.queued id job.kind m.now) := by
    simp [m', launch, enlist, Registry.get?, Store.get?_cons]
  have settled : (settle id).run m' = (m', ()) := run_settle opened known rfl
  have launched : (enroll id job none).run m.reserve =
      (do settle id; return .ok id : Op _).run m' := by
    rw [enroll, Op.run_bind, Op.run_perform, apply_record unused]
    rfl
  rw [launched, Op.run_bind, settled]
  rfl

theorem run_accept_of_full (full : m.registry.free = 0) :
    (accept id job launchError?).run m =
      (m, .error (.resourceExhausted m.config.maxConcurrency)) := by
  have none : (perform .acquire).run m =
      (m, .error (.resourceExhausted m.config.maxConcurrency)) := by
    rw [Op.run_perform, Action.apply, acquire, Registry.acquire?, if_pos full]
  rw [accept, Op.run_bind, none]
  rfl

theorem run_accept_of_free (free : 0 < m.registry.free) :
    (accept id job launchError?).run m = (enroll id job launchError?).run m.reserve := by
  have taken : (perform .acquire).run m = (m.reserve, .ok ()) := by
    rw [Op.run_perform, Action.apply, acquire, Registry.acquire?, if_neg (Nat.ne_of_gt free)]
    rfl
  rw [accept, Op.run_bind, taken]

theorem run_submit_of_valid (opened : m.accepting = true)
    (valid : Job.parse kind payload = .ok job) :
    (submit id kind payload launchError?).run m = (accept id job launchError?).run m := by
  rw [submit, Op.run_bind, Op.run_perform]
  simp only [Action.apply, opened, valid, Bool.not_true, Bool.false_eq_true, if_false]

theorem run_of_refusal {e : TaskError} (unused : m.Unused id)
    (refused : Refusal m kind payload launchError? e) :
    (submit id kind payload launchError?).run m = (m, .error e) := by
  cases refused with
  | shuttingDown closed =>
    rw [submit, Op.run_bind, Op.run_perform]
    simp only [Action.apply, closed]
    rfl
  | invalidPayload opened invalid =>
    rw [submit, Op.run_bind, Op.run_perform]
    simp only [Action.apply, opened, invalid]
    rfl
  | resourceExhausted opened valid full =>
    rw [run_submit_of_valid opened valid, run_accept_of_full full]
  | launch opened valid free failed =>
    rw [run_submit_of_valid opened valid, run_accept_of_free free, failed,
      run_enroll_failed unused free]

theorem run_of_not_refused (unused : m.Unused id)
    (welcome : ∀ e, ¬Refusal m kind payload launchError? e) :
    ∃ job m', Job.parse kind payload = .ok job ∧
      (submit id kind payload launchError?).run m = (m', .ok id) ∧ Adds m id kind job m' := by
  have opened : m.accepting = true := by
    by_contra closed
    exact welcome _ (.shuttingDown (by simpa using closed))
  cases valid : Job.parse kind payload with
  | error e => exact absurd (.invalidPayload opened valid) (welcome _)
  | ok job =>
    have free : 0 < m.registry.free := by
      by_contra full
      exact welcome _ (.resourceExhausted opened valid (Nat.eq_zero_of_not_pos full))
    cases launchError? with
    | some e => exact absurd (.launch opened valid free rfl) (welcome _)
    | none =>
      refine ⟨job, _, rfl, (run_submit_of_valid opened valid).trans
        ((run_accept_of_free free).trans (run_enroll_launched unused opened)), ?_⟩
      obtain rfl := Job.kind_of_decodePayload (Job.decoded_of_parse valid)
      exact { record := rfl, slot := rfl, permit := Nat.sub_add_cancel free, supervisor := rfl,
              worker := rfl, cache := rfl, files := rfl }

/-- A submission is refused and leaves the manager as it was, or it adds one record, one slot, one
supervisor and one worker. -/
theorem submit_all_or_nothing (unused : m.Unused id) :
    match (submit id kind payload launchError?).run m with
    | (m', .error e) => Refusal m kind payload launchError? e ∧ m' = m
    | (m', .ok key) => (∀ e, ¬Refusal m kind payload launchError? e) ∧ key = id ∧
      ∃ job, Job.parse kind payload = .ok job ∧ Adds m id kind job m' := by
  by_cases refused : ∃ e, Refusal m kind payload launchError? e
  · obtain ⟨e, refused⟩ := refused
    rw [run_of_refusal unused refused]
    exact ⟨refused, rfl⟩
  · have welcome := not_exists.mp refused
    obtain ⟨job, m', valid, run, adds⟩ := run_of_not_refused unused welcome
    rw [run]
    exact ⟨welcome, rfl, job, valid, adds⟩

def abortPayload : Json := .obj [("steps", .arr [.obj [("op", .str "abort")]])]

/-- A worker that is not found leaves the only slot free, and one that is launched takes it. -/
theorem idle_submissions : idle.Unused "a" ∧
    (submit "a" .execute abortPayload (some .notFound)).run idle =
      (idle, .error (.launch FileError.notFound.text)) ∧
    ∃ m', (submit "a" .execute abortPayload none).run idle = (m', .ok "a") ∧
      Adds idle "a" .execute (.execute [.abort]) m' ∧ m'.registry.free = 0 := by
  have unused : idle.Unused "a" := ⟨rfl, by decide, by decide⟩
  refine ⟨unused, ?_, ?_⟩
  · have refused : ((submit "a" .execute abortPayload (some .notFound)).run idle).2 =
        .error (.launch FileError.notFound.text) := by decide +kernel
    have fate := @submit_all_or_nothing idle "a" .execute abortPayload (some .notFound) unused
    rcases run : (submit "a" .execute abortPayload (some .notFound)).run idle with ⟨m', answer⟩
    rw [run] at refused fate
    subst refused
    rw [fate.2]
  · have accepted : ((submit "a" .execute abortPayload none).run idle).2 = .ok "a" := by
      decide +kernel
    have fate := @submit_all_or_nothing idle "a" .execute abortPayload none unused
    rcases run : (submit "a" .execute abortPayload none).run idle with ⟨m', answer⟩
    rw [run] at accepted fate
    subst accepted
    obtain ⟨-, -, job, valid, adds⟩ := fate
    have read : Job.parse .execute abortPayload = .ok (.execute [.abort]) := rfl
    obtain rfl := Except.ok.inj (valid.symm.trans read)
    exact ⟨m', rfl, adds, Nat.succ.inj adds.permit⟩

section Run

variable {config : Config} {es : List Event} {s : System} {g g' : Progress} {role : Role}
  {action : Action} {q q' : Submission}

/-- Whether a submission has put a record into the registry and not taken it out again. -/
def Submission.recorded : Submission → Bool
  | .asking | .acquiring | .carrying | .releasing _ | .answered (.error _) => false
  | _ => true

def Submission.registered : Submission → Bool
  | .asking | .acquiring | .carrying | .withdrawing _ | .releasing _ | .launching => false
  | .registering | .answered (.error _) => false
  | _ => true

theorem Submission.Moves.recorded {b : action.Answer} (moves : q.Moves id action b q')
    (h : q'.recorded = false) :
    action = .forget id ∨ q.recorded = false ∧ ∀ kind, action ≠ .record id kind := by
  cases moves <;> simp_all [Submission.recorded]

theorem Submission.Moves.registered {b : action.Answer} (moves : q.Moves id action b q')
    (h : q'.registered = false) : q.registered = false ∧ action ≠ .register id := by
  cases moves <;> simp_all [Submission.registered]

theorem Progress.submission_only {test : Submission → Bool} (hq : g.submission id = some q)
    (h : test q = false) (p : Submission) (hp : g.submission id = some p) : test p = false := by
  cases hq.symm.trans hp
  exact h

/-- What there is of a task comes from its submission: a record that it has not taken out again,
and a supervisor. -/
structure Sourced (g : Progress) (m : Manager) (id : String) : Prop where
  record : (∀ q, g.submission id = some q → q.recorded = false) →
    m.registry.tasks.get? id = none
  supervisor : (∀ q, g.submission id = some q → q.registered = false) → id ∉ m.supervisors

theorem Sourced.keep (h : Sourced g m id) (same : g'.submission id = g.submission id)
    (record : ∀ kind, action ≠ .record id kind) (register : action ≠ .register id) :
    Sourced g' (action.apply m).1 id where
  record hq := absent_apply (h.record (same ▸ hq)) record
  supervisor hq there := h.supervisor (same ▸ hq) (supervisor_of_apply register there)

theorem Tracked.sourced (h : Tracked config es s g) (id : String) : Sourced g s.manager id := by
  induction h with
  | start started =>
    obtain ⟨files, rfl⟩ := start_ok started
    exact ⟨fun _ => rfl, fun _ => List.not_mem_nil⟩
  | call role _ _ lacks ih =>
    exact ⟨fun hq => ih.record fun q here => hq q (Progress.submission_enter lacks here),
      fun hq => ih.supervisor fun q here => hq q (Progress.submission_enter lacks here)⟩
  | @act es m before after role action rest g g' tracked moves _ ih =>
    cases moves with
    | free _ free => exact ih.keep rfl (by rintro kind rfl; exact free) (by rintro rfl; exact free)
    | @submission key _ _ _ _ _ q q' hq moves =>
      by_cases hk : id = key
      · subst hk
        refine ⟨fun clean => ?_, fun clean there => ?_⟩
        · rcases moves.recorded (clean q' (by simp)) with rfl | ⟨before, other⟩
          · simp [Action.apply, onRegistry, Registry.remove]
          · exact absent_apply (ih.record (Progress.submission_only hq before)) other
        · obtain ⟨before, other⟩ := moves.registered (clean q' (by simp))
          exact ih.supervisor (Progress.submission_only hq before) (supervisor_of_apply other there)
      · have key := moves.key hk
        exact ih.keep (by simp [hk]) (by rintro kind rfl; exact key rfl)
          (by rintro rfl; exact key rfl)
    | supervision _ moves =>
      exact ih.keep rfl (by rintro kind rfl; cases moves) (by rintro rfl; cases moves)
    | shutdown _ moves =>
      exact ih.keep rfl (by rintro kind rfl; cases moves) (by rintro rfl; cases moves)
  | elapse _ _ ih => exact ⟨ih.record, ih.supervisor⟩
  | write _ _ ih => exact ⟨ih.record, ih.supervisor⟩

theorem Run.unused_of_refused {e : TaskError} (run : Run config es s)
    (refused : ⟨.submission id kind payload launchError?, .done (.error e)⟩ ∈ s.threads) :
    s.manager.Unused id ∧ s.manager.workers.has id = false := by
  obtain ⟨g, tracked⟩ := run.tracked
  obtain ⟨q, hq, rfl⟩ := tracked.describes.at_place _ refused
  have sourced := tracked.sourced id
  have accounted := tracked.accounted id
  have unsupervised : g.supervision id = none := by
    cases hs : g.supervision id with
    | none => rfl
    | some supervised =>
      obtain ⟨p, hp, alive⟩ := accounted.supervised _ _ hs
      cases hq.symm.trans hp
      cases alive
  have fits := accounted.fits
  rw [Progress.phase_of_submitted unsupervised hq] at fits
  exact ⟨⟨sourced.record (Progress.submission_only hq rfl), fits.1,
    sourced.supervisor (Progress.submission_only hq rfl)⟩, fits.2⟩

end Run

end TaskFlow.Manager
