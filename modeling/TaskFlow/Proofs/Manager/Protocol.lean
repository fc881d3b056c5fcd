import TaskFlow.Manager.Threads

namespace TaskFlow

/-- A procedure follows a protocol from a place on: whatever is answered, its actions are those that
the protocol allows, and it is done at an end. -/
def Procedure.Follows {Action Place α : Type} {Answer : Action → Type}
    (moves : Place → (act : Action) → Answer act → Place → Prop) (ends : Place → α → Prop) :
    Procedure Answer α → Place → Prop
  | .done a, q => ends q a
  | .take act rest, q => ∀ b, ∃ q', moves q act b q' ∧ (rest b).Follows moves ends q'

def Procedure.Uses {Action α : Type} {Answer : Action → Type} (allowed : Action → Prop) :
    Procedure Answer α → Prop
  | .done _ => True
  | .take act rest => allowed act ∧ ∀ b, (rest b).Uses allowed

namespace Procedure

variable {Action Place α β : Type} {Answer : Action → Type} {allowed : Action → Prop}
  {moves : Place → (act : Action) → Answer act → Place → Prop}
  {p : Procedure Answer α} {k : α → Procedure Answer β} {q : Place}

theorem Follows.bind {middle : Place → α → Prop} {ends : Place → β → Prop}
    (hp : p.Follows moves middle q) (hk : ∀ a q, middle q a → (k a).Follows moves ends q) :
    (p >>= k).Follows moves ends q := by
  induction p generalizing q with
  | done a => exact hk a q hp
  | take act rest ih =>
    intro b
    obtain ⟨q', hm, hr⟩ := hp b
    exact ⟨q', hm, ih b hr⟩

theorem Uses.bind (hp : p.Uses allowed) (hk : ∀ a, (k a).Uses allowed) :
    (p >>= k).Uses allowed := by
  induction p with
  | done a => exact hk a
  | take act rest ih => exact ⟨hp.1, fun b => ih b (hp.2 b)⟩

theorem Uses.mono {more : Action → Prop} (hp : p.Uses allowed)
    (weaker : ∀ act, allowed act → more act) : p.Uses more := by
  induction p with
  | done a => trivial
  | take act rest ih => exact ⟨weaker act hp.1, fun b => ih b (hp.2 b)⟩

theorem run_bind {σ : Type} {exec : (act : Action) → σ → σ × Answer act} {s : σ} :
    (p >>= k).run exec s = (k (p.run exec s).2).run exec (p.run exec s).1 := by
  induction p generalizing s with
  | done a => rfl
  | take act rest ih => exact ih _

theorem Uses.run {σ : Type} {exec : (act : Action) → σ → σ × Answer act} {s : σ} {I : σ → Prop}
    (hp : p.Uses allowed) (keep : ∀ act s, allowed act → I s → I (exec act s).1) (h : I s) :
    I (p.run exec s).1 := by
  induction p generalizing s with
  | done a => exact h
  | take act rest ih => exact ih _ (hp.2 _) (keep act s hp.1 h)

/-- Where every allowed action answers alike and keeps states related, a procedure that takes no
others does. -/
theorem Uses.run_related {σ : Type} {exec : (act : Action) → σ → σ × Answer act} {s s' : σ}
    {R : σ → σ → Prop} (hp : p.Uses allowed)
    (keep : ∀ act s s', allowed act → R s s' →
      (exec act s').2 = (exec act s).2 ∧ R (exec act s).1 (exec act s').1) (h : R s s') :
    (p.run exec s').2 = (p.run exec s).2 ∧ R (p.run exec s).1 (p.run exec s').1 := by
  induction p generalizing s s' with
  | done a => exact ⟨rfl, h⟩
  | take act rest ih =>
    obtain ⟨same, related⟩ := keep act s s' hp.1 h
    simp only [Procedure.run, same]
    exact ih _ (hp.2 _) related

theorem Uses.follows (hp : p.Uses allowed) (stay : ∀ act b, allowed act → moves q act b q) :
    p.Follows moves (fun q' _ => q' = q) q := by
  induction p with
  | done a => rfl
  | take act rest ih => exact fun b => ⟨q, stay act b hp.1, ih b (hp.2 b)⟩

end Procedure

namespace Manager

theorem Op.run_bind {α β : Type} {op : Op α} {k : α → Op β} {m : Manager} :
    Op.run (op >>= k) m = (k (op.run m).2).run (op.run m).1 := Procedure.run_bind

@[simp] theorem Op.run_perform {act : Action} {m : Manager} :
    (perform act).run m = act.apply m := rfl

inductive Submission
  | asking
  | acquiring
  | carrying
  | withdrawing (reason : String)
  | releasing (reason : String)
  | launching
  | registering
  | rechecking
  | settling
  | inspecting (accepting : Bool)
  | stopping
  | sending
  | answered (reply : Except TaskError String)

inductive Submission.Moves (id : String) :
    Submission → (act : Action) → act.Answer → Submission → Prop
  | turnAway : Moves id .asking .isAccepting false (.answered (.error .shuttingDown))
  | reject (e : PayloadError) :
    Moves id .asking .isAccepting true (.answered (.error (.invalidPayload e)))
  | ask : Moves id .asking .isAccepting true .acquiring
  | exhaust (e : TaskError) : Moves id .acquiring .acquire (.error e) (.answered (.error e))
  | acquire : Moves id .acquiring .acquire (.ok ()) .carrying
  | recordInVain (kind : JobKind) (reason : String) :
    Moves id .carrying (.record id kind) () (.withdrawing reason)
  | record (kind : JobKind) : Moves id .carrying (.record id kind) () .launching
  | withdraw (reason : String) (t : Option TaskInfo) :
    Moves id (.withdrawing reason) (.forget id) t (.releasing reason)
  | release (reason : String) (b : Bool) :
    Moves id (.releasing reason) (.release id) b (.answered (.error (.launch reason)))
  | launch (job : Job) : Moves id .launching (.launch id job) () .registering
  | register : Moves id .registering (.register id) () .rechecking
  | goOn : Moves id .rechecking .isAccepting true (.inspecting true)
  | giveUp : Moves id .rechecking .isAccepting false .settling
  | settle (r : Except TransitionError CancelOutcome) :
    Moves id .settling (.cancel id) r (.inspecting false)
  | dismiss (accepting : Bool) (t : Option TaskInfo)
    (unwanted : accepting = false ∨ t.all (·.status.isTerminal) = true) :
    Moves id (.inspecting accepting) (.info id) t .stopping
  | keep (t : Option TaskInfo) (wanted : t.all (·.status.isTerminal) = false) :
    Moves id (.inspecting true) (.info id) t (.answered (.ok id))
  | unsupervised : Moves id .stopping (.isSupervised id) false (.answered (.ok id))
  | supervised : Moves id .stopping (.isSupervised id) true .sending
  | send (b : Bool) : Moves id .sending (.send id .graceful) b (.answered (.ok id))

def Submission.Ends (q : Submission) (reply : Except TaskError String) : Prop :=
  q = .answered reply

theorem follows_signalStop (id : String) :
    (signalStop id .graceful).Follows (Submission.Moves id) (fun q _ => q = .answered (.ok id))
      .stopping := by
  rintro (_ | _)
  · exact ⟨_, .unsupervised, rfl⟩
  · exact ⟨_, .supervised, fun b => ⟨_, .send b, rfl⟩⟩

theorem follows_settle (id : String) :
    (settle id).Follows (Submission.Moves id) (fun q _ => q = .answered (.ok id)) .rechecking := by
  have stop : (do let _ ← signalStop id .graceful : Op Unit).Follows (Submission.Moves id)
      (fun q _ => q = .answered (.ok id)) .stopping :=
    (follows_signalStop id).bind fun _ _ h => h
  rintro (_ | _)
  · exact ⟨_, .giveUp, fun r => ⟨_, .settle r, fun t => ⟨_, .dismiss _ t (.inl rfl), stop⟩⟩⟩
  · refine ⟨_, .goOn, fun t => ?_⟩
    cases ht : t.all (·.status.isTerminal) with
    | true =>
      refine ⟨_, .dismiss _ t (.inr ht), ?_⟩
      simp only [Procedure.bind, ht, Bool.not_true, Bool.false_or, if_true]
      exact stop
    | false =>
      refine ⟨_, .keep t ht, ?_⟩
      simp only [Procedure.bind, ht, Bool.not_true, Bool.false_or, Bool.false_eq_true, if_false]
      rfl

theorem follows_enroll (id : String) (job : Job) (launchError? : Option FileError) :
    (enroll id job launchError?).Follows (Submission.Moves id) Submission.Ends .carrying := by
  rintro ⟨⟩
  cases launchError? with
  | none =>
    refine ⟨_, .record _, fun _ => ⟨_, .launch job, fun _ => ⟨_, .register, ?_⟩⟩⟩
    exact (follows_settle id).bind fun _ _ h => h
  | some e =>
    exact ⟨_, .recordInVain _ e.text, fun t => ⟨_, .withdraw _ t, fun b => ⟨_, .release _ b, rfl⟩⟩⟩

theorem follows_submit (id : String) (kind : JobKind) (payload : Json)
    (launchError? : Option FileError) :
    (submit id kind payload launchError?).Follows (Submission.Moves id) Submission.Ends
      .asking := by
  rintro (_ | _)
  · exact ⟨_, .turnAway, rfl⟩
  -- the payload is read between two actions: the protocol only sees which action comes next
  cases Job.parse kind payload with
  | error e =>
    exact ⟨_, .reject e, rfl⟩
  | ok job =>
    refine ⟨_, .ask, ?_⟩
    rintro (e | ⟨⟩)
    · exact ⟨_, .exhaust e, rfl⟩
    · exact ⟨_, .acquire, follows_enroll id job launchError?⟩

inductive Supervising
  | watching
  | starting
  | loading
  | storing (table : Table) (bytes : Nat)
  | completing (reference : ResultRef)
  | discarding
  | failing (failure : TaskFailure)
  | canceling
  | clearing
  | releasing
  | leaving
  | left

/-- How a supervision goes on whose worker comes to an outcome. -/
inductive Supervising.Moves (id : String) (outcome : Outcome) :
    Supervising → (act : Action) → act.Answer → Supervising → Prop
  | begin (r : Except TransitionError Status) :
    Moves id outcome .watching (.markRunning id) r .watching
  | progress (fraction : Single) (message : Option String) (b : Bool) :
    Moves id outcome .watching (.noteProgress id fraction message) b .watching
  | reapStopped (forced : Bool) (h : outcome = .stopped forced) :
    Moves id outcome .watching (.reap id) () .canceling
  | reapEnded (h : ∀ forced, outcome ≠ .stopped forced) :
    Moves id outcome .watching (.reap id) () .starting
  | succeed (path : String) (rows bytes : Nat) (h : outcome = .succeeded path rows bytes)
    (r : Except TransitionError Status) : Moves id outcome .starting (.markRunning id) r .loading
  | fail (e : String) (h : outcome = .failed e) (r : Except TransitionError Status) :
    Moves id outcome .starting (.markRunning id) r (.failing (.application e))
  | crash (d : String) (h : outcome = .crashed d) (r : Except TransitionError Status) :
    Moves id outcome .starting (.markRunning id) r (.failing (.workerCrashed d))
  | load (table : Table) (bytes : Nat) :
    Moves id outcome .loading (.load id) (.ok (table, bytes)) (.storing table bytes)
  | spoil (e : StorageError) :
    Moves id outcome .loading (.load id) (.error e)
      (.failing (.application ("artefacto ilegible: " ++ e.text)))
  | store (table : Table) (bytes : Nat) (reference : ResultRef) :
    Moves id outcome (.storing table bytes) (.store id table bytes) (.ok reference)
      (.completing reference)
  | refuse (table : Table) (bytes : Nat) (e : CacheError) :
    Moves id outcome (.storing table bytes) (.store id table bytes) (.error e)
      (.failing (.application e.text))
  | complete (reference : ResultRef) (s : Status) :
    Moves id outcome (.completing reference) (.complete id reference) (.ok s) .clearing
  | lose (reference : ResultRef) (e : TransitionError) :
    Moves id outcome (.completing reference) (.complete id reference) (.error e) .discarding
  | discard (b : Bool) : Moves id outcome .discarding (.evict id) b .clearing
  -- after a success the artifact is cleared away, whatever became of it; a failure leaves none
  | noteFailure (failure : TaskFailure) (r : Except TransitionError Status) (q : Supervising)
    (h : q = .clearing ∨ q = .releasing) :
    Moves id outcome (.failing failure) (.fail id failure) r q
  | cancel (r : Except TransitionError CancelOutcome) :
    Moves id outcome .canceling (.cancel id) r .clearing
  | clear : Moves id outcome .clearing (.removeArtifact id) () .releasing
  | release (b : Bool) : Moves id outcome .releasing (.release id) b .leaving
  | leave : Moves id outcome .leaving (.unregister id) () .left

section Supervising

variable (id : String) (outcome : Outcome)

theorem follows_observeAll (ms : List Message) :
    (observeAll id ms).Follows (Supervising.Moves id outcome) (fun q _ => q = .watching)
      .watching := by
  induction ms with
  | nil => rfl
  | cons m ms ih =>
    have observed : (observe id m).Follows (Supervising.Moves id outcome)
        (fun q _ => q = .watching) .watching := by
      cases m with
      | started => rintro (e | s) <;> exact ⟨_, .begin _, rfl⟩
      | progress fraction message => exact fun b => ⟨_, .progress fraction message b, rfl⟩
      | completed path rows bytes => rfl
      | failed e => rfl
    exact observed.bind fun _ _ h => h ▸ ih

theorem follows_recordFailure (failure : TaskFailure) (q : Supervising)
    (h : q = .clearing ∨ q = .releasing) :
    (recordFailure id failure).Follows (Supervising.Moves id outcome) (fun q' _ => q' = q)
      (.failing failure) := fun r => ⟨q, .noteFailure failure r q h, rfl⟩

theorem follows_commit (table : Table) (bytes : Nat) :
    (commit id table bytes).Follows (Supervising.Moves id outcome) (fun q _ => q = .clearing)
      (.storing table bytes) := by
  rintro (e | reference)
  · exact ⟨_, .refuse table bytes e, follows_recordFailure id outcome _ _ (.inl rfl)⟩
  · refine ⟨_, .store table bytes reference, ?_⟩
    rintro (e | s)
    · exact ⟨_, .lose reference e, fun b => ⟨_, .discard b, rfl⟩⟩
    · exact ⟨_, .complete reference s, rfl⟩

def Supervising.reaped : Outcome → Supervising
  | .stopped _ => .canceling
  | _ => .starting

theorem follows_finalize :
    (finalize id outcome).Follows (Supervising.Moves id outcome) (fun q _ => q = .releasing)
      (.reaped outcome) := by
  have clear : (removeArtifact id).Follows (Supervising.Moves id outcome)
      (fun q _ => q = .releasing) .clearing := fun _ => ⟨_, .clear, rfl⟩
  cases outcome with
  | succeeded path rows bytes =>
    refine fun r => ⟨_, .succeed path rows bytes rfl r, ?_⟩
    rintro (e | ⟨table, size⟩)
    · refine ⟨_, .spoil e, ?_⟩
      exact (follows_recordFailure id _ _ _ (.inl rfl)).bind fun _ _ h => h ▸ clear
    · refine ⟨_, .load table size, ?_⟩
      exact (follows_commit id _ table size).bind fun _ _ h => h ▸ clear
  | failed e =>
    exact fun r => ⟨_, .fail e rfl r, follows_recordFailure id _ _ _ (.inr rfl)⟩
  | crashed d =>
    exact fun r => ⟨_, .crash d rfl r, follows_recordFailure id _ _ _ (.inr rfl)⟩
  | stopped forced => exact fun r => ⟨_, .cancel r, clear⟩

theorem follows_conclude :
    (conclude id outcome).Follows (Supervising.Moves id outcome) (fun q _ => q = .left)
      .watching := by
  have leave : (do let _ ← releaseSlot id; perform (.unregister id) : Op Unit).Follows
      (Supervising.Moves id outcome) (fun q _ => q = .left) .releasing :=
    fun b => ⟨_, .release b, fun _ => ⟨_, .leave, rfl⟩⟩
  refine fun _ => ⟨.reaped outcome, ?_, ?_⟩
  · cases outcome with
    | stopped forced => exact .reapStopped forced rfl
    | _ => exact .reapEnded (by simp)
  · exact (follows_finalize id outcome).bind fun _ _ h => h ▸ leave

theorem follows_supervise (c : Course) :
    (supervise id c).Follows (Supervising.Moves id c.outcome) (fun q _ => q = .left) .watching :=
  (follows_observeAll id c.outcome c.messages).bind fun _ _ h => h ▸ follows_conclude id c.outcome

end Supervising

/-- Whether an action keeps a result or notes how its task ended. -/
def Action.Commits (id : String) : Action → Prop
  | .store key .. | .complete key _ | .fail key _ | .evict key => key = id
  | _ => False

theorem uses_recordFailure (id : String) (failure : TaskFailure) :
    (recordFailure id failure).Uses (Action.Commits id) := ⟨rfl, fun _ => trivial⟩

theorem uses_commit (id : String) (table : Table) (bytes : Nat) :
    (commit id table bytes).Uses (Action.Commits id) := by
  refine ⟨rfl, ?_⟩
  rintro (e | reference)
  · exact uses_recordFailure id _
  · refine ⟨rfl, ?_⟩
    rintro (e | s)
    · exact ⟨rfl, fun _ => trivial⟩
    · trivial

inductive Closing
  | closing
  | halting
  | listing
  | canceling (ids : List String)
  | sending (ids : List String)

inductive Closing.Moves : Closing → (act : Action) → act.Answer → Closing → Prop
  | close : Moves .closing .stopAccepting () .halting
  | halt : Moves .halting .stopSweeping () .listing
  | list (ids : List String) : Moves .listing .activeIds ids (.canceling ids)
  | cancel (id : String) (ids : List String) (r : Except TransitionError CancelOutcome) :
    Moves (.canceling (id :: ids)) (.cancel id) r (.canceling ids)
  | drain (pending : List String) : Moves (.canceling []) .drain pending (.sending pending)
  | send (id : String) (ids : List String) (b : Bool) :
    Moves (.sending (id :: ids)) (.send id .graceful) b (.sending ids)

theorem follows_cancelAll (ids : List String) :
    (cancelAll ids).Follows Closing.Moves (fun q _ => q = .canceling []) (.canceling ids) := by
  -- the place is the list of those that are still to be canceled
  induction ids with
  | nil => rfl
  | cons id ids ih => exact fun r => ⟨_, .cancel id ids r, ih.bind fun _ _ h => h⟩

theorem follows_sendAll (ids : List String) :
    (sendAll .graceful ids).Follows Closing.Moves (fun q _ => q = .sending []) (.sending ids) := by
  induction ids with
  | nil => rfl
  | cons id ids ih => exact fun b => ⟨_, .send id ids b, ih⟩

theorem follows_beginShutdown :
    beginShutdown.Follows Closing.Moves (fun q _ => q = .sending []) .closing := by
  refine fun _ => ⟨_, .close, fun _ => ⟨_, .halt, fun ids => ⟨_, .list ids, ?_⟩⟩⟩
  refine (follows_cancelAll ids).bind fun n q h => ?_
  subst h
  exact fun pending => ⟨_, .drain pending, (follows_sendAll pending).bind fun _ _ h => h⟩

/-- Whether an action may be taken by anybody at any time. -/
def Action.IsFree : Action → Prop
  | .isAccepting | .isSupervised _ | .send .. | .info _ | .list | .samples _ | .cancel _ => True
  | .noteMemory .. | .forget _ | .fetch _ | .acknowledge _ | .evict _ | .expired _ => True
  | _ => False

/-- Whether an action may be taken by anybody, and removes neither a record nor a result. -/
def Action.Spares : Action → Prop
  | .forget _ | .evict _ => False
  | act => act.IsFree

theorem Action.Spares.isFree {act : Action} (h : act.Spares) : act.IsFree := by
  cases act <;> first | exact h | exact h.elim

theorem uses_status (id : String) : (status id).Uses Action.Spares :=
  ⟨trivial, fun t => by cases t <;> trivial⟩

theorem uses_result (id : String) : (result id).Uses Action.Spares := by
  refine ⟨trivial, fun t => ?_⟩
  cases t with
  | none => trivial
  | some t =>
    simp only [Procedure.bind]
    cases t.status with
    | completed => exact ⟨trivial, fun r => by cases r <;> trivial⟩
    | _ => trivial

theorem uses_acknowledge (id : String) : (acknowledge id).Uses Action.Spares := by
  refine ⟨trivial, ?_⟩
  rintro (e | ⟨⟩)
  · cases e with
    | notFetched key => exact ⟨trivial, fun _ => trivial⟩
    | _ => trivial
  · trivial

theorem uses_signalStop (id : String) (mode : StopMode) :
    (signalStop id mode).Uses Action.Spares := by
  refine ⟨trivial, ?_⟩
  rintro (_ | _)
  · trivial
  · exact ⟨trivial, fun _ => trivial⟩

theorem uses_cancel (id : String) : (cancel id).Uses Action.Spares := by
  refine ⟨trivial, ?_⟩
  rintro (e | outcome)
  · trivial
  cases outcome with
  | canceled before => exact (uses_signalStop id _).bind fun _ => ⟨trivial, fun _ => trivial⟩
  | alreadyTerminal s => exact ⟨trivial, fun _ => trivial⟩

theorem uses_delete (id : String) : (delete id).Uses Action.IsFree := by
  refine ((uses_status id).mono fun _ => Action.Spares.isFree).bind fun known => ?_
  cases known with
  | error e => trivial
  | ok t =>
    simp only
    split
    · exact ⟨trivial, fun _ => ⟨trivial, fun _ => trivial⟩⟩
    · refine ((uses_cancel id).mono fun _ => Action.Spares.isFree).bind ?_
      rintro (e | a)
      · trivial
      · exact ⟨trivial, fun _ => ⟨trivial, fun _ => trivial⟩⟩

theorem uses_sweep (ttl : Int) : (sweep ttl).Uses Action.IsFree := by
  refine ⟨trivial, fun ids => ?_⟩
  induction ids with
  | nil => trivial
  | cons id ids ih => exact ⟨trivial, fun _ => ih.bind fun _ => trivial⟩

end Manager

end TaskFlow
