import TaskFlow.Proofs.Registry.Basic

namespace TaskFlow.Registry

inductive Call
  | insert (info : TaskInfo) (withSlot : Bool)
  | markRunning (id : String) (now : Instant)
  | complete (id : String) (result : ResultRef) (now : Instant)
  | fail (id : String) (failure : TaskFailure) (now : Instant)
  | cancel (id : String) (now : Instant)
  | setProgress (id : String) (fraction : Single) (message : Option String)
  | recordMemory (id : String) (sample : MemorySample)
  | releaseSlot (id : String)
  | remove (id : String)
  | sweep (now : Instant) (ttl : Int)

namespace Call

abbrev Answer : Call → Type
  | .insert .. | .setProgress .. | .recordMemory .. | .releaseSlot _ => Bool
  | .markRunning .. | .complete .. | .fail .. => Except TransitionError Status
  | .cancel .. => Except TransitionError CancelOutcome
  | .remove _ => Option TaskInfo
  | .sweep .. => Nat

/-- What a call does. An insertion that needs a slot takes a free one before, and adds nothing if
there is none. -/
def apply : (c : Call) → Registry → Registry × c.Answer
  | .insert info false, r => (r.insert info false, true)
  | .insert info true, r =>
    match r.acquire? with
    | some r => (r.insert info true, true)
    | none => (r, false)
  | .markRunning id now, r => r.markRunning id now
  | .complete id result now, r => r.complete id result now
  | .fail id failure now, r => r.fail id failure now
  | .cancel id now, r => r.cancel id now
  | .setProgress id fraction message, r => r.setProgress id fraction message
  | .recordMemory id sample, r => r.recordMemory id sample
  | .releaseSlot id, r => r.releaseSlot id
  | .remove id, r => r.remove id
  | .sweep now ttl, r => r.sweep now ttl

def inserts (id : String) : Call → Bool
  | .insert info _ => info.id == id
  | _ => false

/-- The end that a call brings a task to, if it succeeds in that. -/
def ending? (id : String) (r : Registry) : Call → Option Status
  | .complete key result now =>
    if key = id ∧ (r.complete key result now).2.isOk then some .completed else none
  | .fail key failure now =>
    if key = id ∧ (r.fail key failure now).2.isOk then some .failed else none
  | .cancel key now =>
    match (r.cancel key now).2 with
    | .ok (.canceled _) => if key = id then some .canceled else none
    | _ => none
  | _ => none

end Call

def after (r : Registry) (calls : List Call) : Registry := calls.foldl (fun r c => (c.apply r).1) r

def endings (id : String) : Registry → List Call → List Status
  | _, [] => []
  | r, c :: cs => (c.ending? id r).toList ++ endings id (c.apply r).1 cs

/-- A task that has ended refuses everything, and says how it ended. -/
structure Refuses (r : Registry) (id : String) (s : Status) : Prop where
  markRunning : ∀ now, (r.markRunning id now).2 = .error (.illegal s .running)
  complete : ∀ result now, (r.complete id result now).2 = .error (.illegal s .completed)
  fail : ∀ failure now, (r.fail id failure now).2 = .error (.illegal s .failed)
  cancel : ∀ now, (r.cancel id now).2 = .ok (.alreadyTerminal s)
  setProgress : ∀ fraction message, (r.setProgress id fraction message).2 = false
  recordMemory : ∀ sample, (r.recordMemory id sample).2 = false

variable {r : Registry} {id key : String} {c : Call} {calls : List Call} {s : Status}
  {t : TaskRecord}

@[simp] theorem after_nil : r.after [] = r := rfl

@[simp] theorem after_cons : r.after (c :: calls) = (c.apply r).1.after calls := rfl

@[simp] theorem after_append {later : List Call} :
    r.after (calls ++ later) = (r.after calls).after later := List.foldl_append

theorem refuses_of_isTerminal (h : r.tasks.get? id = some t)
    (ht : t.info.status.isTerminal = true) : r.Refuses id t.info.status := by
  have refused (next : Status) (now : Instant) (change : TaskInfo → TaskInfo) :
      (r.transition id next now change).2 = .error (.illegal t.info.status next) := by
    rw [transition_of_illegal h (Status.canBecome_of_isTerminal ht)]
  have idle : r.isRunning id = false := by
    rw [isRunning_eq, h]
    cases hs : t.info.status <;> simp_all [Status.isTerminal]
  exact {
    markRunning := fun now => refused ..
    complete := fun result now => refused ..
    fail := fun failure now => refused ..
    cancel := fun now => by rw [cancel_of_isTerminal h ht]
    setProgress := fun _ _ => by simp [setProgress, idle]
    recordMemory := fun _ => by simp [recordMemory, idle] }

theorem get?_apply_of_inactive (h : r.Inactive id) (hc : c.inserts id = false) :
    (c.apply r).1.tasks.get? id = r.tasks.get? id ∨ (c.apply r).1.tasks.get? id = none := by
  cases c with
  | insert info withSlot =>
    have hne : id ≠ info.id := fun e => by simp [Call.inserts, e] at hc
    left
    cases withSlot with
    | false => simp [Call.apply, hne]
    | true =>
      simp only [Call.apply]
      split
      · next r' ha =>
        obtain ⟨-, rfl⟩ := acquire?_eq_some.mp ha
        simp [hne]
      · rfl
  | markRunning key now => exact .inl (get?_transition_of_inactive h)
  | complete key result now => exact .inl (get?_transition_of_inactive h)
  | fail key failure now => exact .inl (get?_transition_of_inactive h)
  | cancel key now =>
    left
    simp only [Call.apply, cancel_fst]
    exact get?_transition_of_inactive h
  | setProgress key fraction message => exact .inl (get?_setProgress h)
  | recordMemory key sample => exact .inl (get?_recordMemory h)
  | releaseSlot key => simp [Call.apply, releaseSlot]
  | remove key =>
    simp only [Call.apply, remove, Store.get?_erase]
    split <;> simp
  | sweep now ttl =>
    simp only [Call.apply, sweep, get?_removeAll]
    split <;> simp

theorem inactive_apply (h : r.Inactive id) (hc : c.inserts id = false) :
    (c.apply r).1.Inactive id := by
  rcases get?_apply_of_inactive h hc with same | gone
  · intro t ht
    exact h t (same ▸ ht)
  · exact inactive_of_none gone

theorem get?_after_of_inactive (h : r.Inactive id) (hc : ∀ c ∈ calls, c.inserts id = false) :
    (r.after calls).tasks.get? id = r.tasks.get? id ∨ (r.after calls).tasks.get? id = none := by
  induction calls generalizing r with
  | nil => exact .inl rfl
  | cons c calls ih =>
    simp only [List.forall_mem_cons] at hc
    rcases ih (inactive_apply h hc.1) hc.2 with same | gone
    · rw [after_cons, same]
      exact get?_apply_of_inactive h hc.1
    · exact .inr gone

theorem ending?_eq_some (h : c.ending? id r = some s) :
    s.isTerminal = true ∧ ¬r.Inactive id ∧
      ∃ t, (c.apply r).1.tasks.get? id = some t ∧ t.info.status = s := by
  -- completing and failing are transitions that answer whether they succeeded; a cancellation
  -- answers well in either case, and tells what it found
  have of_transition {next : Status} {now : Instant} {change : TaskInfo → TaskInfo}
      (hn : next.isTerminal = true) (keeps : ∀ t, (change t).status = t.status)
      (ok : (r.transition id next now change).2.isOk = true) :
      next.isTerminal = true ∧ ¬r.Inactive id ∧
        ∃ t, (r.transition id next now change).1.tasks.get? id = some t ∧ t.info.status = next := by
    obtain ⟨before, hb⟩ : ∃ before, (r.transition id next now change).2 = .ok before := by
      cases hr : (r.transition id next now change).2 with
      | ok before => exact ⟨before, rfl⟩
      | error e => simp [hr, Except.isOk, Except.toBool] at ok
    obtain ⟨t, ht, hs, -, moved⟩ := get?_transition_of_ok hb
    refine ⟨hn, fun inactive => ?_, _, moved, ?_⟩
    · simp [Status.canBecome_of_isTerminal (inactive t ht)] at hs
    · simp [Registry.moved, keeps, enter]
  cases c with
  | complete key result now =>
    simp only [Call.ending?, Option.ite_none_right_eq_some, Option.some.injEq] at h
    obtain ⟨⟨rfl, ok⟩, rfl⟩ := h
    exact of_transition rfl (fun _ => rfl) ok
  | fail key failure now =>
    simp only [Call.ending?, Option.ite_none_right_eq_some, Option.some.injEq] at h
    obtain ⟨⟨rfl, ok⟩, rfl⟩ := h
    exact of_transition rfl (fun _ => rfl) ok
  | cancel key now =>
    simp only [Call.ending?] at h
    split at h
    · next before hc =>
      simp only [Option.ite_none_right_eq_some, Option.some.injEq] at h
      obtain ⟨rfl, rfl⟩ := h
      cases ht : r.tasks.get? key with
      | none => simp [cancel_of_absent ht] at hc
      | some t =>
        cases active : t.info.status.isTerminal with
        | true => simp [cancel_of_isTerminal ht active] at hc
        | false =>
          refine ⟨rfl, fun inactive => by simp [inactive t ht] at active, ?_⟩
          simp [Call.apply, cancel_of_active ht active, update, ht, moved, noteCanceled, enter]
    · cases h
  | _ => simp [Call.ending?] at h

theorem endings_of_inactive (h : r.Inactive id) (hc : ∀ c ∈ calls, c.inserts id = false) :
    endings id r calls = [] := by
  induction calls generalizing r with
  | nil => rfl
  | cons c calls ih =>
    simp only [List.forall_mem_cons] at hc
    have none : c.ending? id r = none :=
      Option.eq_none_iff_forall_ne_some.mpr fun s hs => (ending?_eq_some hs).2.1 h
    rw [endings, none, ih (inactive_apply h hc.1) hc.2]
    rfl

theorem length_endings_le_one (hc : ∀ c ∈ calls, c.inserts id = false) :
    (endings id r calls).length ≤ 1 := by
  induction calls generalizing r with
  | nil => simp [endings]
  | cons c calls ih =>
    simp only [List.forall_mem_cons] at hc
    cases he : c.ending? id r with
    | none => simpa [endings, he] using ih hc.2
    | some s =>
      -- the first end is the last: the task is inactive from here on
      obtain ⟨hs, -, t, ht, rfl⟩ := ending?_eq_some he
      simp [endings, he, endings_of_inactive (inactive_of_some ht hs) hc.2]

/-- At most one call ends a task; from then on its record stays as it is and it refuses everything,
until it is forgotten. -/
theorem single_terminal_outcome (r : Registry) (once : ∀ c ∈ calls, c.inserts id = false) :
    (endings id r calls).length ≤ 1 ∧
    ∀ before call later s, calls = before ++ call :: later →
      call.ending? id (r.after before) = some s →
      s.isTerminal = true ∧
      ∀ mid, mid <+: later → (r.after (before ++ call :: mid)).tasks.has id = true →
        (r.after (before ++ call :: mid)).tasks.get? id =
          (r.after (before ++ [call])).tasks.get? id ∧
        ((r.after (before ++ call :: mid)).get? id).map (·.status) = some s ∧
        (r.after (before ++ call :: mid)).Refuses id s := by
  refine ⟨length_endings_le_one once, ?_⟩
  rintro before call later s rfl ends
  obtain ⟨hs, -, t, ht, rfl⟩ := ending?_eq_some ends
  refine ⟨hs, fun mid hmid known => ?_⟩
  -- from its end on the task is inactive, and an inactive record changes by its removal only
  have later_once : ∀ c ∈ mid, c.inserts id = false := fun c hc =>
    once c (by simp [hmid.subset hc])
  have kept : (r.after (before ++ call :: mid)).tasks.get? id = some t := by
    obtain ⟨u, hu⟩ := Store.has_iff.mp known
    rw [after_append, after_cons] at hu ⊢
    rcases get?_after_of_inactive (inactive_of_some ht hs) later_once with same | gone
    · rw [same, ht]
    · rw [gone] at hu
      cases hu
  refine ⟨?_, by rw [get?_eq, kept]; rfl, refuses_of_isTerminal kept hs⟩
  rw [kept, after_append, after_cons, after_nil, ht]

def lateFailure : List Call :=
  [.insert (.queued "a" .execute default) true, .markRunning "a" default, .cancel "a" default,
    .fail "a" (.application "late") default, .releaseSlot "a"]

/-- A canceled task stays canceled, although its slot is given back after a late failure. -/
theorem canceled_before_failure :
    (∀ c ∈ lateFailure.tail, c.inserts "a" = false) ∧
    endings "a" { free := 1 } lateFailure = [.canceled] ∧
    (({ free := 1 } : Registry).after lateFailure).Refuses "a" .canceled := by
  have once : ∀ c ∈ lateFailure.tail, c.inserts "a" = false := by decide
  let r := ((Call.insert (.queued "a" .execute default) true).apply { free := 1 }).1
  have canceled := (single_terminal_outcome r once).2 [.markRunning "a" default]
    (.cancel "a" default) _ .canceled rfl rfl
  exact ⟨once, rfl, (canceled.2 _ (List.prefix_refl _) rfl).2.2⟩

end TaskFlow.Registry
