import Mathlib.Data.List.Induction
import TaskFlow.Proofs.Binary.Order
import TaskFlow.Proofs.Registry.Calls

namespace TaskFlow

namespace TaskRecord

def FitsStatus (t : TaskRecord) : Prop :=
  match t.info.status with
  | .queued => t.info.startedAt = none ∧ t.info.endedAt = none ∧ t.info.message = none ∧
    t.info.error = none ∧ t.info.resultRef = none ∧ t.memory = [] ∧
    t.info.progress = Binary.zero
  | .running => t.info.startedAt.isSome = true ∧ t.info.endedAt = none ∧ t.info.error = none ∧
    t.info.resultRef = none
  | .completed => t.info.startedAt.isSome = true ∧ t.info.endedAt.isSome = true ∧
    t.info.resultRef.isSome = true ∧ t.info.error = none ∧ t.info.progress = Binary.ofNat 1
  | .failed => t.info.startedAt.isSome = true ∧ t.info.endedAt.isSome = true ∧
    t.info.resultRef = none ∧ ∃ e, t.info.error = some e ∧ t.info.message = some e.text
  | .canceled => t.info.endedAt.isSome = true ∧ t.info.error = none ∧ t.info.resultRef = none ∧
    (t.memory ≠ [] → t.info.startedAt.isSome = true)

/-- A record that holds what it should, its progress between zero and one. -/
structure WellFormed (t : TaskRecord) : Prop where
  fits : t.FitsStatus
  progress : t.info.progress.InUnit

end TaskRecord

theorem Status.canBecome_running {s : Status} (h : s.canBecome .running = true) :
    s = .queued := by
  cases s <;> first | rfl | cases h

theorem Status.canBecome_completed {s : Status} (h : s.canBecome .completed = true) :
    s = .running := by
  cases s <;> first | rfl | cases h

theorem Status.canBecome_failed {s : Status} (h : s.canBecome .failed = true) :
    s = .running := by
  cases s <;> first | rfl | cases h

namespace Registry

variable {r : Registry} {id : String} {c : Call} {calls before later : List Call}
  {t u : TaskRecord} {x : Single}

def noteResult (result : ResultRef) (t : TaskInfo) : TaskInfo :=
  { t with progress := Binary.ofNat 1, resultRef := some result }

def noteFailure (failure : TaskFailure) (t : TaskInfo) : TaskInfo :=
  { t with message := some failure.text, error := some failure }

def noteProgress (fraction : Single) (message : Option String) (t : TaskRecord) : TaskRecord :=
  { t with info := { t.info with
      progress := t.info.progress.max (clampFraction fraction)
      message := message.or t.info.message } }

/-- How a call that does not insert a task changes its record. -/
inductive Develops (t : TaskRecord) : TaskRecord → Prop
  | same : Develops t t
  | run (now : Instant) : t.info.status = .queued → Develops t (moved .running now (fun t => t) t)
  | complete (now : Instant) (result : ResultRef) :
    t.info.status = .running → Develops t (moved .completed now (noteResult result) t)
  | fail (now : Instant) (failure : TaskFailure) :
    t.info.status = .running → Develops t (moved .failed now (noteFailure failure) t)
  | cancel (now : Instant) :
    t.info.status.isTerminal = false → Develops t (moved .canceled now noteCanceled t)
  | progress (fraction : Single) (message : Option String) :
    t.info.status = .running → Develops t (noteProgress fraction message t)
  | memory (sample : MemorySample) :
    t.info.status = .running → Develops t { t with memory := t.memory ++ [sample] }

theorem isRunning_of_some (h : r.tasks.get? id = some t) :
    r.isRunning id = true ↔ t.info.status = .running := by
  simp [isRunning_eq, h]

/-- A transition of any task leaves a record as it is, or moves it as its life allows. -/
theorem develops_transition {key : String} {next : Status} {now : Instant}
    {change : TaskInfo → TaskInfo} (hu : (r.transition key next now change).1.tasks.get? id = some u)
    (develops : ∀ t : TaskRecord, t.info.status.canBecome next = true →
      Develops t (moved next now change t)) :
    ∃ t, r.tasks.get? id = some t ∧ Develops t u := by
  by_cases hk : id = key
  · subst hk
    obtain ⟨t, ht, ⟨can, rfl⟩ | ⟨-, rfl⟩⟩ := get?_transition_eq_some hu
    · exact ⟨t, ht, develops t can⟩
    · exact ⟨u, ht, .same⟩
  · rw [get?_transition_of_ne hk] at hu
    exact ⟨u, hu, .same⟩

theorem develops_update {key : String} {f : TaskRecord → TaskRecord} (running : r.isRunning key = true)
    (hu : (r.update key f).tasks.get? id = some u)
    (develops : ∀ t : TaskRecord, t.info.status = .running → Develops t (f t)) :
    ∃ t, r.tasks.get? id = some t ∧ Develops t u := by
  simp only [update, Store.get?_modify] at hu
  split at hu
  · next hk =>
    subst hk
    obtain ⟨t, ht, rfl⟩ := Option.map_eq_some_iff.mp hu
    exact ⟨t, ht, develops t ((isRunning_of_some ht).mp running)⟩
  · exact ⟨u, hu, .same⟩

/-- Whatever is known after a call was known before, and has changed in one of these ways. -/
theorem develops_apply (hc : c.inserts id = false)
    (hu : (c.apply r).1.tasks.get? id = some u) :
    ∃ t, r.tasks.get? id = some t ∧ Develops t u := by
  -- one case a call; those of a transition go by what may become of the status
  cases c with
  | insert info withSlot =>
    have hne : id ≠ info.id := fun e => by simp [Call.inserts, e] at hc
    cases withSlot with
    | false => exact ⟨u, by simpa [Call.apply, hne] using hu, .same⟩
    | true =>
      simp only [Call.apply] at hu
      split at hu
      · next r' ha =>
        obtain ⟨-, rfl⟩ := acquire?_eq_some.mp ha
        exact ⟨u, by simpa [hne] using hu, .same⟩
      · exact ⟨u, hu, .same⟩
  | markRunning key now =>
    exact develops_transition hu fun t can => .run now (Status.canBecome_running can)
  | complete key result now =>
    exact develops_transition hu fun t can => .complete now result (Status.canBecome_completed can)
  | fail key failure now =>
    exact develops_transition hu fun t can => .fail now failure (Status.canBecome_failed can)
  | cancel key now =>
    simp only [Call.apply, cancel_fst] at hu
    refine develops_transition hu fun t can => .cancel now ?_
    rwa [Status.canBecome_canceled, Bool.not_eq_true'] at can
  | setProgress key fraction message =>
    simp only [Call.apply, setProgress] at hu
    split at hu
    · next running => exact develops_update running hu fun t => .progress fraction message
    · exact ⟨u, hu, .same⟩
  | recordMemory key sample =>
    simp only [Call.apply, recordMemory] at hu
    split at hu
    · next running => exact develops_update running hu fun t => .memory sample
    · exact ⟨u, hu, .same⟩
  | releaseSlot key => exact ⟨u, by simpa [Call.apply, releaseSlot] using hu, .same⟩
  | remove key =>
    simp only [Call.apply, remove, Store.get?_erase] at hu
    split at hu
    · cases hu
    · exact ⟨u, hu, .same⟩
  | sweep now ttl =>
    simp only [Call.apply, sweep, get?_removeAll] at hu
    split at hu
    · cases hu
    · exact ⟨u, hu, .same⟩

theorem inUnit_clampFraction : (clampFraction x).InUnit := by
  unfold clampFraction
  cases x with
  | finite s m e =>
    simp only [Binary.isFinite, Bool.not_true, Bool.false_eq_true, if_false]
    split
    · exact Binary.inUnit_zero
    split
    · exact Binary.inUnit_one
    · next low high =>
      rw [Binary.lt_zero, not_lt] at low
      rw [Binary.one_lt, not_lt] at high
      exact Binary.inUnit_finite.mpr ⟨low, high⟩
  | _ => exact Binary.inUnit_zero

theorem wellFormed_queued (id : String) (kind : JobKind) (now : Instant) :
    TaskRecord.WellFormed ⟨.queued id kind now, []⟩ :=
  ⟨⟨rfl, rfl, rfl, rfl, rfl, rfl, rfl⟩, Binary.inUnit_zero⟩

/-- A change keeps what belongs to the state of a task, and brings what belongs to its next one. -/
theorem Develops.wellFormed (d : Develops t u) (h : t.WellFormed) : u.WellFormed := by
  have fits := h.fits
  unfold TaskRecord.FitsStatus at fits
  cases d with
  | same => exact h
  | run now hs =>
    rw [hs] at fits
    obtain ⟨-, ended, -, error, result, -, -⟩ := fits
    exact ⟨⟨rfl, ended, error, result⟩, h.progress⟩
  | complete now result hs =>
    rw [hs] at fits
    obtain ⟨started, -, error, -⟩ := fits
    exact ⟨⟨started, rfl, rfl, error, rfl⟩, Binary.inUnit_one⟩
  | fail now failure hs =>
    rw [hs] at fits
    obtain ⟨started, -, -, result⟩ := fits
    exact ⟨⟨started, rfl, result, failure, rfl, rfl⟩, h.progress⟩
  | cancel now hs =>
    -- a task that waits has no samples yet, and a running one has noted when it began
    cases status : t.info.status with
    | queued =>
      rw [status] at fits
      obtain ⟨-, -, -, error, result, unsampled, -⟩ := fits
      exact ⟨⟨rfl, error, result, fun sampled => absurd unsampled sampled⟩, h.progress⟩
    | running =>
      rw [status] at fits
      obtain ⟨started, -, error, result⟩ := fits
      exact ⟨⟨rfl, error, result, fun _ => started⟩, h.progress⟩
    | _ => simp [status, Status.isTerminal] at hs
  | progress fraction message hs =>
    refine ⟨?_, h.progress.max inUnit_clampFraction⟩
    rw [hs] at fits
    simpa only [TaskRecord.FitsStatus, noteProgress, hs] using fits
  | memory sample hs =>
    refine ⟨?_, h.progress⟩
    rw [hs] at fits
    simpa only [TaskRecord.FitsStatus, hs] using fits

theorem Develops.progress_le (d : Develops t u) (h : t.WellFormed) :
    t.info.progress.le u.info.progress = true := by
  cases d with
  | complete now result hs => exact h.progress.2
  | progress fraction message hs => exact h.progress.le_max inUnit_clampFraction
  | _ => exact h.progress.le_refl

/-- Whether a call, if it inserts a task, inserts one that was just accepted. -/
def Call.Queues (c : Call) : Prop :=
  ∀ info withSlot, c = .insert info withSlot → ∃ id kind now, info = .queued id kind now

theorem wellFormed_apply (hc : c.Queues) (h : ∀ id t, r.tasks.get? id = some t → t.WellFormed)
    (hu : (c.apply r).1.tasks.get? id = some u) : u.WellFormed := by
  cases inserted : c.inserts id with
  | false =>
    obtain ⟨t, ht, develops⟩ := develops_apply inserted hu
    exact develops.wellFormed (h id t ht)
  | true =>
    cases c with
    | insert info withSlot =>
      obtain ⟨key, kind, now, rfl⟩ := hc info withSlot rfl
      obtain rfl : key = id := by simpa [Call.inserts, TaskInfo.queued] using inserted
      have fresh (r' : Registry) (slot : Bool)
          (hu : (r'.insert (.queued key kind now) slot).tasks.get? key = some u) : u.WellFormed := by
        simp only [tasks_insert, Store.get?_insert, TaskInfo.queued, if_true,
          Option.some.injEq] at hu
        rw [← hu]
        exact wellFormed_queued key kind now
      cases withSlot with
      | false => exact fresh r false hu
      | true =>
        simp only [Call.apply] at hu
        split at hu
        · exact fresh _ true hu
        · exact h key u hu
    | _ => cases inserted

theorem wellFormed_after (queued : ∀ c ∈ calls, c.Queues)
    (h : ∀ id t, r.tasks.get? id = some t → t.WellFormed) :
    ∀ id t, (r.after calls).tasks.get? id = some t → t.WellFormed := by
  induction calls generalizing r with
  | nil => exact h
  | cons c calls ih =>
    simp only [List.forall_mem_cons] at queued
    exact ih queued.2 fun id t ht => wellFormed_apply queued.1 h ht

theorem progress_after (queued : ∀ c ∈ calls, c.Queues) (once : ∀ c ∈ calls, c.inserts id = false)
    (h : ∀ id t, r.tasks.get? id = some t → t.WellFormed) (ht : r.tasks.get? id = some t)
    (hu : (r.after calls).tasks.get? id = some u) : t.info.progress.le u.info.progress = true := by
  induction calls using List.reverseRecOn generalizing u with
  | nil =>
    obtain rfl : t = u := Option.some.inj (ht.symm.trans hu)
    exact (h id t ht).progress.le_refl
  | append_singleton calls c ih =>
    simp only [List.forall_mem_append, List.forall_mem_singleton] at queued once
    rw [after_append] at hu
    obtain ⟨v, hv, develops⟩ := develops_apply once.2 hu
    have wf : v.WellFormed := wellFormed_after queued.1 h id v hv
    exact (h id t ht).progress.le_trans wf.progress (develops.wellFormed wf).progress
      (ih queued.1 once.1 hv) (develops.progress_le wf)

/-- Calls that insert new tasks only: each was just accepted, under an identifier of its own. -/
structure Fresh (calls : List Call) : Prop where
  queued : ∀ c ∈ calls, c.Queues
  distinct : calls.Pairwise fun c d => ∀ id, c.inserts id = true → d.inserts id = false

theorem inserted_of_known {free : Nat}
    (ht : (({ free } : Registry).after calls).tasks.get? id = some t) :
    ∃ c ∈ calls, c.inserts id = true := by
  by_contra missing
  simp only [not_exists, not_and, Bool.not_eq_true] at missing
  have absent : ({ free } : Registry).tasks.get? id = none := rfl
  rcases get?_after_of_inactive (inactive_of_none absent) missing with same | gone
  · cases absent.symm.trans (same.symm.trans ht)
  · cases gone.symm.trans ht

/-- Each record holds exactly what belongs to the state of its task, with its progress between zero
and one, and progress never goes back. -/
theorem records_well_formed (free : Nat) (fresh : Fresh calls) :
    (∀ id t, (({ free } : Registry).after calls).tasks.get? id = some t → t.WellFormed) ∧
    ∀ before later id t u, calls = before ++ later →
      (({ free } : Registry).after before).tasks.get? id = some t →
      (({ free } : Registry).after calls).tasks.get? id = some u →
      t.info.progress.le u.info.progress = true := by
  have none (id : String) (t : TaskRecord)
      (ht : ({ free } : Registry).tasks.get? id = some t) : t.WellFormed := nomatch ht
  refine ⟨wellFormed_after fresh.queued none, ?_⟩
  rintro before later id t u rfl ht hu
  have queued := fresh.queued
  rw [List.forall_mem_append] at queued
  -- the record was inserted before, so it is not inserted again
  obtain ⟨c, hc, inserts⟩ := inserted_of_known ht
  have once : ∀ d ∈ later, d.inserts id = false := fun d hd =>
    (List.pairwise_append.mp fresh.distinct).2.2 c hc d hd id inserts
  rw [after_append] at hu
  exact progress_after queued.2 once (wellFormed_after queued.1 none) ht hu

/-- A task that reports half its progress, then an undefined and an infinite fraction, and is
canceled. -/
def erratic : List Call :=
  [.insert (.queued "a" .execute default) true, .markRunning "a" default,
    .setProgress "a" (.finite false 8388608 (-24)) none, .recordMemory "a" default,
    .setProgress "a" .nan none, .setProgress "a" (.infinite true) none, .cancel "a" default]

/-- Half the progress stays, and the canceled task has noted when it began. -/
theorem erratic_well_formed : Fresh erratic ∧ ∃ t u,
    (({ free := 1 } : Registry).after (erratic.take 4)).tasks.get? "a" = some t ∧
    (({ free := 1 } : Registry).after erratic).tasks.get? "a" = some u ∧
    t.WellFormed ∧ u.WellFormed ∧ u.info.status = .canceled ∧ u.memory ≠ [] ∧
    t.info.progress.le u.info.progress = true := by
  have fresh : Fresh erratic := by
    refine ⟨?_, by simp [erratic, Call.inserts, TaskInfo.queued]⟩
    simp only [erratic, List.forall_mem_cons, Call.Queues]
    refine ⟨?_, by simp⟩
    rintro info withSlot ⟨⟩
    exact ⟨"a", .execute, default, rfl⟩
  obtain ⟨wellFormed, grows⟩ := records_well_formed 1 fresh
  let running : TaskInfo := { TaskInfo.queued "a" .execute default with
    status := .running, startedAt := some default, progress := .finite false 8388608 (-24) }
  let t : TaskRecord := ⟨running, [default]⟩
  let u : TaskRecord := ⟨{ running with
    status := .canceled, endedAt := some default, message := some "cancelada" }, [default]⟩
  have ht : (({ free := 1 } : Registry).after (erratic.take 4)).tasks.get? "a" = some t := rfl
  have hu : (({ free := 1 } : Registry).after erratic).tasks.get? "a" = some u := rfl
  have early : Fresh (erratic.take 4) := ⟨fun c hc => fresh.queued c (List.mem_of_mem_take hc),
    fresh.distinct.sublist (List.take_sublist 4 erratic)⟩
  exact ⟨fresh, t, u, ht, hu, (records_well_formed 1 early).1 "a" t ht, wellFormed "a" u hu, rfl,
    by simp [u], grows (erratic.take 4) (erratic.drop 4) "a" t u rfl ht hu⟩

end Registry

end TaskFlow
