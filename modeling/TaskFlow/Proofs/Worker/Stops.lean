import TaskFlow.Proofs.Worker.Supervision

namespace TaskFlow

namespace Occurrence

/-- A request to ask the worker to end, at a time when it can be signaled or cannot. -/
def Asks (o : Occurrence) (now : Nat) (reachable : Bool) : Prop :=
  ∃ acknowledged, o = .request .graceful now reachable acknowledged

def Forces (o : Occurrence) : Prop :=
  ∃ now reachable acknowledged, o = .request .force now reachable acknowledged

def awaited : Occurrence → Bool
  | .request _ _ _ acknowledged => acknowledged
  | _ => false

end Occurrence

namespace Supervision

variable {s s' : Supervision} {o : Occurrence} {os : List Occurrence} {ms : List Message}
  {rs : List Reaction}

def answer (acknowledged : Bool) : List Reaction := if acknowledged then [.acknowledge] else []

/-- What a supervisor can make of an occurrence: the state and the reactions that come of it. -/
inductive Response (s : Supervision) : Occurrence → Supervision → List Reaction → Prop
  | passed {o : Occurrence} {reported : Option Message} {rs : List Reaction} :
    ¬o.IsRequest → (o = .graceOver → s.deadline = none) → (∀ r ∈ rs, ∃ m, r = .deliver m) →
      Response s o { s with reported } rs
  | asked (now : Nat) (acknowledged : Bool) : s.stopMode = none →
    Response s (.request .graceful now true acknowledged)
      { s with stopMode := some .graceful, deadline := some (now + s.grace) }
      (.terminate :: answer acknowledged)
  | unreachable (now : Nat) (acknowledged : Bool) : s.stopMode = none →
    Response s (.request .graceful now false acknowledged)
      { s with stopMode := some .graceful, forced := true }
      (.terminate :: .kill :: answer acknowledged)
  | again (now : Nat) (reachable acknowledged : Bool) : s.stopMode.isSome = true →
    Response s (.request .graceful now reachable acknowledged)
      { s with stopMode := some (stronger .graceful s.stopMode) } (answer acknowledged)
  | forced (now : Nat) (reachable acknowledged : Bool) :
    Response s (.request .force now reachable acknowledged)
      { s with stopMode := some .force, forced := true, deadline := none }
      (.kill :: answer acknowledged)
  | overdue : s.deadline.isSome = true →
    Response s .graceOver { s with forced := true, deadline := none } [.kill]

theorem response_of_observe (s : Supervision) (m : Message) :
    Response s (.message m) (s.observe m).1 (s.observe m).2 := by
  have passed (reported : Option Message) {rs : List Reaction} (h : ∀ r ∈ rs, ∃ m, r = .deliver m) :
      Response s (.message m) { s with reported } rs := .passed id nofun h
  unfold observe
  split
  · split
    · exact passed s.reported (by simp)
    · exact passed (some m) (by simp)
  · exact passed s.reported (by simp)

theorem response (s : Supervision) (o : Occurrence) : Response s o (s.step o).1 (s.step o).2 := by
  have passed {o : Occurrence} (quiet : ¬o.IsRequest)
      (unarmed : o = .graceOver → s.deadline = none) :
      Response s o { s with reported := s.reported } [] := .passed quiet unarmed (by simp)
  cases o with
  | message m => exact response_of_observe s m
  | closed => exact passed id nofun
  | request mode now reachable acknowledged =>
    cases mode with
    | force =>
      have always : stronger .force s.stopMode = .force := by
        rcases s.stopMode with _ | _ | _ <;> rfl
      rw [step, request, always]
      exact .forced now reachable acknowledged
    | graceful =>
      cases stopped : s.stopMode.isSome with
      | true =>
        simp only [step, request, stopped]
        exact .again now reachable acknowledged stopped
      | false =>
        have fresh : s.stopMode = none := Option.not_isSome_iff_eq_none.mp (by simp [stopped])
        cases reachable with
        | true =>
          simp only [step, request, fresh]
          exact .asked now acknowledged fresh
        | false =>
          simp only [step, request, fresh]
          exact .unreachable now acknowledged fresh
  | graceOver =>
    rw [step, graceOver]
    split
    · next armed => exact .overdue armed
    · next unarmed =>
      exact passed id fun _ => Option.not_isSome_iff_eq_none.mp unarmed

structure Sound (s : Supervision) : Prop where
  stopped_of_armed : s.deadline.isSome = true → s.stopMode.isSome = true
  stopped_of_forced : s.forced = true → s.stopMode.isSome = true
  unarmed_of_forced : s.forced = true → s.deadline = none

namespace Response

theorem sound (h : Response s o s' rs) (sound : s.Sound) : s'.Sound := by
  obtain ⟨armed, forced, unarmed⟩ := sound
  cases h with
  | passed => exact ⟨armed, forced, unarmed⟩
  | asked now acknowledged fresh =>
    refine ⟨fun _ => rfl, fun _ => rfl, fun h => ?_⟩
    rw [fresh] at forced
    exact absurd (forced h) (by decide)
  | unreachable now acknowledged fresh =>
    refine ⟨fun _ => rfl, fun _ => rfl, fun _ => ?_⟩
    rw [fresh] at armed
    exact Option.not_isSome_iff_eq_none.mp fun h => absurd (armed h) (by decide)
  | again => exact ⟨fun _ => rfl, fun _ => rfl, unarmed⟩
  | forced => exact ⟨fun _ => rfl, fun _ => rfl, fun _ => rfl⟩
  | overdue started => exact ⟨fun _ => armed started, fun _ => armed started, fun _ => rfl⟩

theorem grace (h : Response s o s' rs) : s'.grace = s.grace := by cases h <;> rfl

theorem not_mem_answer {r : Reaction} {acknowledged : Bool} (other : r ≠ .acknowledge) :
    r ∉ answer acknowledged := by
  cases acknowledged <;> simp [answer, other]

theorem not_mem_of_deliver {r : Reaction} (delivers : ∀ r ∈ rs, ∃ m, r = .deliver m)
    (other : ∀ m, r ≠ .deliver m) : r ∉ rs := fun hr =>
  let ⟨m, hm⟩ := delivers r hr
  other m hm

theorem only_delivers {m : Message} (h : Response s (.message m) s' rs) :
    s'.forced = s.forced ∧ ∀ r ∈ rs, ∃ m, r = .deliver m := by
  cases h with
  | passed _ _ delivers => exact ⟨rfl, delivers⟩

/-- A worker is killed when this is requested, when the grace is over, and when it cannot be
asked. -/
theorem kill_iff (h : Response s o s' rs) : .kill ∈ rs ↔
    o.Forces ∨ (o = .graceOver ∧ s.deadline.isSome = true) ∨
      (s.stopMode = none ∧ ∃ now, o.Asks now false) := by
  cases h with
  | passed quiet unarmed delivers =>
    refine iff_of_false (not_mem_of_deliver delivers nofun) ?_
    rintro (⟨_, _, _, rfl⟩ | ⟨rfl, armed⟩ | ⟨-, _, _, rfl⟩)
    · exact quiet trivial
    · simp [unarmed rfl] at armed
    · exact quiet trivial
  | asked now acknowledged fresh =>
    simp [not_mem_answer, Occurrence.Forces, Occurrence.Asks]
  | unreachable now acknowledged fresh => simp [Occurrence.Asks, fresh]
  | again now reachable acknowledged stopped =>
    have old : s.stopMode ≠ none := Option.isSome_iff_ne_none.mp stopped
    simp [not_mem_answer, Occurrence.Forces, old]
  | forced now reachable acknowledged => simp [Occurrence.Forces]
  | overdue armed => simp [armed]

theorem terminate_iff (h : Response s o s' rs) : .terminate ∈ rs ↔
    s.stopMode = none ∧ ∃ now reachable, o.Asks now reachable := by
  cases h with
  | passed quiet _ delivers =>
    refine iff_of_false (not_mem_of_deliver delivers nofun) ?_
    rintro ⟨-, _, _, _, rfl⟩
    exact quiet trivial
  | asked now acknowledged fresh => simp [Occurrence.Asks, fresh]
  | unreachable now acknowledged fresh => simp [Occurrence.Asks, fresh]
  | again now reachable acknowledged stopped =>
    have old : s.stopMode ≠ none := Option.isSome_iff_ne_none.mp stopped
    simp [not_mem_answer, old]
  | forced now reachable acknowledged => simp [not_mem_answer, Occurrence.Asks]
  | overdue armed => simp [Occurrence.Asks]

/-- A deadline is set by the first request, if it asks and the worker can be signaled, and stands
until the grace is over or force is requested. -/
theorem deadline_iff (h : Response s o s' rs) (sound : s.Sound) (t : Nat) :
    s'.deadline = some t ↔
      (s.deadline = some t ∧ o ≠ .graceOver ∧ ¬o.Forces) ∨
        (s.stopMode = none ∧ ∃ now, o.Asks now true ∧ t = now + s.grace) := by
  have unset (fresh : s.stopMode = none) : s.deadline = none :=
    Option.not_isSome_iff_eq_none.mp fun armed => by
      simpa [fresh] using sound.stopped_of_armed armed
  cases h with
  | passed quiet unarmed delivers =>
    constructor
    · intro standing
      refine .inl ⟨standing, ?_, ?_⟩
      · rintro rfl
        exact absurd standing (by simp [unarmed rfl])
      · rintro ⟨_, _, _, rfl⟩
        exact quiet trivial
    · rintro (⟨standing, -, -⟩ | ⟨-, _, ⟨_, rfl⟩, -⟩)
      · exact standing
      · exact absurd trivial quiet
  | asked now acknowledged fresh => simp [Occurrence.Asks, fresh, unset, eq_comm]
  | unreachable now acknowledged fresh => simp [Occurrence.Asks, fresh, unset]
  | again now reachable acknowledged stopped =>
    have old : s.stopMode ≠ none := Option.isSome_iff_ne_none.mp stopped
    simp [Occurrence.Forces, old]
  | forced now reachable acknowledged => simp [Occurrence.Forces, Occurrence.Asks]
  | overdue armed => simp [Occurrence.Asks]

theorem forced_iff (h : Response s o s' rs) : s'.forced = true ↔ s.forced = true ∨ .kill ∈ rs := by
  cases h with
  | passed _ _ delivers => simp [not_mem_of_deliver delivers]
  | asked | again => simp [not_mem_answer]
  | unreachable | forced | overdue => simp

theorem count_terminate_le (h : Response s o s' rs) : rs.count .terminate ≤ 1 := by
  have silent {acknowledged : Bool} : (answer acknowledged).count .terminate = 0 :=
    List.count_eq_zero.mpr (not_mem_answer nofun)
  cases h with
  | passed _ _ delivers =>
    have none : .terminate ∉ rs := not_mem_of_deliver delivers nofun
    rw [List.count_eq_zero.mpr none]
    exact Nat.zero_le 1
  | asked | unreachable | again | forced | overdue => simp [silent]

theorem acknowledges (h : Response s o s' rs) :
    ∃ signals, rs = signals ++ answer o.awaited ∧ .acknowledge ∉ signals := by
  cases h with
  | passed quiet _ delivers =>
    have unawaited : o.awaited = false := by
      cases o with
      | request => exact absurd trivial quiet
      | message | closed | graceOver => rfl
    exact ⟨rs, by simp [unawaited, answer], not_mem_of_deliver delivers nofun⟩
  | asked => exact ⟨[.terminate], rfl, by simp⟩
  | unreachable => exact ⟨[.terminate, .kill], rfl, by simp⟩
  | again => exact ⟨[], rfl, by simp⟩
  | forced => exact ⟨[.kill], rfl, by simp⟩
  | overdue => exact ⟨[.kill], rfl, by simp⟩

end Response

theorem steps_append (s : Supervision) (os os' : List Occurrence) :
    s.steps (os ++ os') =
      (((s.steps os).1.steps os').1, (s.steps os).2 ++ ((s.steps os).1.steps os').2) := by
  induction os generalizing s with
  | nil => rfl
  | cons o os ih => rw [List.cons_append, steps_cons, ih, steps_cons, List.append_assoc]

theorem grace_steps (s : Supervision) (os : List Occurrence) : (s.steps os).1.grace = s.grace := by
  induction os generalizing s with
  | nil => rfl
  | cons o os ih => rw [steps_cons, ih, (s.response o).grace]

theorem Sound.steps (sound : s.Sound) (os : List Occurrence) : (s.steps os).1.Sound := by
  induction os generalizing s with
  | nil => exact sound
  | cons o os ih => exact ih ((s.response o).sound sound)

theorem forced_steps : (s.steps os).1.forced = true ↔ s.forced = true ∨ .kill ∈ (s.steps os).2 := by
  induction os generalizing s with
  | nil => simp [Supervision.steps]
  | cons o os ih => rw [steps_cons, ih, (s.response o).forced_iff, List.mem_append, or_assoc]

theorem forced_observeAll : (s.observeAll ms).1.forced = s.forced ∧
    ∀ r ∈ (s.observeAll ms).2, ∃ m, r = .deliver m := by
  induction ms generalizing s with
  | nil => exact ⟨rfl, nofun⟩
  | cons m ms ih =>
    have first := (response_of_observe s m).only_delivers
    rw [observeAll_cons]
    exact ⟨ih.1.trans first.1, fun r hr => (List.mem_append.mp hr).elim (first.2 r) (ih.2 r)⟩

theorem not_mem_terminate_steps (stopped : s.stopMode.isSome = true) :
    .terminate ∉ (s.steps os).2 := by
  induction os generalizing s with
  | nil => exact List.not_mem_nil
  | cons o os ih =>
    rw [steps_cons, List.mem_append, not_or]
    refine ⟨fun asks => ?_, ih (stopMode_step.mpr (.inl stopped))⟩
    have fresh : s.stopMode = none := ((s.response o).terminate_iff.mp asks).1
    exact absurd stopped (by simp [fresh])

theorem count_terminate_steps : (s.steps os).2.count .terminate ≤ 1 := by
  induction os generalizing s with
  | nil => exact Nat.zero_le 1
  | cons o os ih =>
    rw [steps_cons, List.count_append]
    by_cases asks : .terminate ∈ (s.step o).2
    · obtain ⟨-, now, reachable, acknowledged, rfl⟩ := (s.response o).terminate_iff.mp asks
      have stopped := stopMode_step (s := s) (o := .request .graceful now reachable acknowledged)
      rw [List.count_eq_zero.mpr (not_mem_terminate_steps (stopped.mpr (.inr trivial)))]
      exact (s.response _).count_terminate_le
    · rw [List.count_eq_zero.mpr asks, Nat.zero_add]
      exact ih

theorem count_acknowledge_steps :
    (s.steps os).2.count .acknowledge = os.countP (·.awaited) := by
  induction os generalizing s with
  | nil => rfl
  | cons o os ih =>
    obtain ⟨signals, reactions, silent⟩ := (s.response o).acknowledges
    have once : (answer o.awaited).count .acknowledge = if o.awaited then 1 else 0 := by
      cases o.awaited <;> rfl
    rw [steps_cons, List.count_append, ih, reactions, List.count_append,
      List.count_eq_zero.mpr silent, Nat.zero_add, once, List.countP_cons, Nat.add_comm]

def armings (s : Supervision) : List Occurrence → List Nat
  | [] => []
  | o :: os =>
    ((s.step o).1.deadline.filter fun t => s.deadline ≠ some t).toList ++ (s.step o).1.armings os

theorem first_of_arming {t : Nat} (sound : s.Sound)
    (set : ((s.step o).1.deadline.filter fun t => s.deadline ≠ some t) = some t) :
    s.stopMode = none ∧ o.IsRequest := by
  obtain ⟨set, new⟩ := Option.filter_eq_some_iff.mp set
  rcases ((s.response o).deadline_iff sound t).mp set with ⟨standing, -⟩ | ⟨fresh, _, ⟨_, rfl⟩, -⟩
  · simp [standing] at new
  · exact ⟨fresh, trivial⟩

theorem armings_eq_nil (sound : s.Sound) (stopped : s.stopMode.isSome = true) :
    s.armings os = [] := by
  induction os generalizing s with
  | nil => rfl
  | cons o os ih =>
    rw [armings, ih ((s.response o).sound sound) (stopMode_step.mpr (.inl stopped)),
      List.append_nil]
    cases set : (s.step o).1.deadline.filter fun t => s.deadline ≠ some t with
    | none => rfl
    | some t =>
      have fresh : s.stopMode = none := (first_of_arming sound set).1
      exact absurd stopped (by simp [fresh])

theorem length_armings_le (sound : s.Sound) : (s.armings os).length ≤ 1 := by
  induction os generalizing s with
  | nil => exact Nat.zero_le 1
  | cons o os ih =>
    rw [armings, List.length_append]
    cases set : (s.step o).1.deadline.filter fun t => s.deadline ≠ some t with
    | none => simpa using ih ((s.response o).sound sound)
    | some t =>
      have requested : o.IsRequest := (first_of_arming sound set).2
      rw [armings_eq_nil ((s.response o).sound sound) (stopMode_step.mpr (.inr requested))]
      simp

theorem kill_of_forces (h : ∃ p ∈ os, p.Forces) : .kill ∈ (s.steps os).2 := by
  induction os generalizing s with
  | nil => simp at h
  | cons o os ih =>
    rw [steps_cons, List.mem_append]
    obtain ⟨p, hp, forces⟩ := h
    rcases List.mem_cons.mp hp with rfl | later
    · exact .inl ((s.response p).kill_iff.mpr (.inl forces))
    · exact .inr (ih ⟨p, later, forces⟩)

def after (grace : Nat) (os : List Occurrence) : Supervision :=
  (({ grace } : Supervision).steps os).1

theorem sound_after (grace : Nat) (os : List Occurrence) : (after grace os).Sound :=
  Sound.steps ⟨by simp, by simp, fun _ => rfl⟩ os

theorem stopMode_after {grace : Nat} :
    (after grace os).stopMode = none ↔ ¬∃ o ∈ os, o.IsRequest := by
  rw [← Option.not_isSome_iff_eq_none, after, stopMode_steps]
  simp

/-- How an occurrence is taken after others: one request asks and sets the deadline, force or the
deadline kills, and requests are acknowledged. -/
structure Escalates (grace : Nat) (earlier : List Occurrence) (o : Occurrence) : Prop where
  terminate_iff : .terminate ∈ ((after grace earlier).step o).2 ↔
    (∃ now reachable, o.Asks now reachable) ∧ ¬∃ p ∈ earlier, p.IsRequest
  deadline_iff : ∀ t, ((after grace earlier).step o).1.deadline = some t ↔
    ((after grace earlier).deadline = some t ∧ o ≠ .graceOver ∧ ¬o.Forces) ∨
      (∃ now, o.Asks now true ∧ t = now + grace) ∧ ¬∃ p ∈ earlier, p.IsRequest
  kept : ∀ t t', (after grace earlier).deadline = some t →
    ((after grace earlier).step o).1.deadline = some t' → t' = t
  unarmed : (∃ p ∈ earlier ++ [o], p.Forces) → ((after grace earlier).step o).1.deadline = none
  kill_iff : .kill ∈ ((after grace earlier).step o).2 ↔
    o.Forces ∨ (o = .graceOver ∧ (after grace earlier).deadline.isSome = true) ∨
      (∃ now, o.Asks now false) ∧ ¬∃ p ∈ earlier, p.IsRequest
  acknowledges : ∃ signals, ((after grace earlier).step o).2 = signals ++ answer o.awaited ∧
    .acknowledge ∉ signals

theorem escalates (grace : Nat) (earlier : List Occurrence) (o : Occurrence) :
    Escalates grace earlier o := by
  have response := (after grace earlier).response o
  have sound := sound_after grace earlier
  have same : (after grace earlier).grace = grace := grace_steps _ _
  refine ⟨?_, fun t => ?_, fun t t' standing set => ?_, fun forces => ?_, ?_, response.acknowledges⟩
  · rw [response.terminate_iff, stopMode_after, and_comm]
  · rw [response.deadline_iff sound, stopMode_after, same, and_comm (b := ∃ now, _)]
  · rcases (response.deadline_iff sound t').mp set with ⟨still, -⟩ | ⟨fresh, -⟩
    · exact Option.some_inj.mp (still.symm.trans standing)
    · have stopped := sound.stopped_of_armed (by rw [standing]; rfl)
      exact absurd stopped (by simp [fresh])
  · have last : ((after grace earlier).step o).1 = after grace (earlier ++ [o]) := by
      rw [after, after, steps_append]
      rfl
    rw [last]
    exact (sound_after _ _).unarmed_of_forced (forced_steps.mpr (.inr (kill_of_forces forces)))
  · rw [response.kill_iff, stopMode_after, and_comm (b := ∃ now, _)]

theorem reactions_supervise (grace : Nat) (os : List Occurrence) (exit : ExitStatus)
    (rest : List Message) : (supervise grace os exit rest).1 =
      (({ grace } : Supervision).steps os).2 ++ ((after grace os).observeAll rest).2 := rfl

/-- What is still on its way when the worker ends makes a supervisor do nothing but deliver it. -/
theorem count_supervise {grace : Nat} {exit : ExitStatus} {rest : List Message} {r : Reaction}
    (other : ∀ m, r ≠ .deliver m) : (supervise grace os exit rest).1.count r =
      (({ grace } : Supervision).steps os).2.count r := by
  have none : r ∉ ((after grace os).observeAll rest).2 :=
    Response.not_mem_of_deliver forced_observeAll.2 other
  rw [reactions_supervise, List.count_append, List.count_eq_zero.mpr none, Nat.add_zero]

theorem mem_supervise {grace : Nat} {exit : ExitStatus} {rest : List Message} {r : Reaction}
    (other : ∀ m, r ≠ .deliver m) : r ∈ (supervise grace os exit rest).1 ↔
      r ∈ (({ grace } : Supervision).steps os).2 := by
  rw [← List.count_pos_iff, count_supervise other, List.count_pos_iff]

theorem stopped_true_iff {grace : Nat} {exit : ExitStatus} {rest : List Message} :
    (supervise grace os exit rest).2 = .stopped true ↔
      .kill ∈ (({ grace } : Supervision).steps os).2 := by
  have forced : ((after grace os).observeAll rest).1.forced = true ↔
      .kill ∈ (({ grace } : Supervision).steps os).2 := by
    rw [forced_observeAll.1, after, forced_steps]
    simp
  change ((after grace os).observeAll rest).1.outcome exit = _ ↔ _
  rw [outcome]
  split
  · rw [Outcome.stopped.injEq]
    exact forced
  · next free =>
    refine iff_of_false (ofExit_ne_stopped _ _ _) fun kill => free ?_
    rw [stopMode_observeAll]
    exact (sound_after grace os).stopped_of_forced (forced_steps.mpr (.inr kill))

/-- A worker is asked to end at most once, with one deadline at most; each request is acknowledged
once, and a kill marks the stop as forced. -/
theorem stops_escalate (grace : Nat) (os : List Occurrence) (exit : ExitStatus)
    (rest : List Message) :
    let run := supervise grace os exit rest
    (∀ earlier o later, os = earlier ++ o :: later → Escalates grace earlier o ∧
      ∃ behind, run.1 = (({ grace } : Supervision).steps earlier).2 ++
        ((after grace earlier).step o).2 ++ behind) ∧
    run.1.count .terminate ≤ 1 ∧
    (({ grace } : Supervision).armings os).length ≤ 1 ∧
    (run.2 = .stopped true ↔ .kill ∈ run.1) ∧
    run.1.count .acknowledge = os.countP (·.awaited) := by
  intro run
  refine ⟨?_, ?_, length_armings_le (sound_after grace []), ?_, ?_⟩
  · rintro earlier o later rfl
    have behind : (({ grace } : Supervision).steps (earlier ++ o :: later)).2 =
        (({ grace } : Supervision).steps earlier).2 ++ ((after grace earlier).step o).2 ++
          (((after grace earlier).step o).1.steps later).2 := by
      rw [steps_append, steps_cons, List.append_assoc]
      rfl
    exact ⟨escalates grace earlier o, _,
      (reactions_supervise ..).trans ((congrArg (· ++ _) behind).trans (List.append_assoc ..))⟩
  · exact Nat.le_trans (Nat.le_of_eq (count_supervise (r := .terminate) nofun))
      count_terminate_steps
  · exact stopped_true_iff.trans (mem_supervise (r := .kill) nofun).symm
  · exact (count_supervise (r := .acknowledge) nofun).trans count_acknowledge_steps

/-- A worker that is asked twice to end, is killed when its grace is over, and then once more. -/
def impatient : List Occurrence :=
  [.message .started, .request .graceful 3 true true, .request .graceful 4 true false, .graceOver,
    .request .force 9 false true, .request .graceful 9 true true]

/-- An impatient supervisor asks once, and kills at the time that was set by the first request. -/
theorem impatient_killed :
    impatient = impatient.take 3 ++ .graceOver :: impatient.drop 4 ∧
      (after 5 (impatient.take 3)).deadline = some 8 ∧
      .kill ∈ ((after 5 (impatient.take 3)).step .graceOver).2 ∧
      (supervise 5 impatient (.signal 9) []).2 = .stopped true := by
  obtain ⟨each, -, -, stopped, -⟩ := stops_escalate 5 impatient (.signal 9) []
  have escalates := (each (impatient.take 3) .graceOver (impatient.drop 4) rfl).1
  exact ⟨rfl, rfl, escalates.kill_iff.mpr (.inr (.inl ⟨rfl, rfl⟩)), stopped.mpr (by decide)⟩

end Supervision

end TaskFlow
