import TaskFlow.Store
import TaskFlow.Task.Info

namespace TaskFlow

inductive TransitionError
  | notFound (id : String)
  | illegal (before after : Status)
  deriving DecidableEq, Repr

def TransitionError.text : TransitionError → String
  | .notFound id => "tarea " ++ id ++ " no encontrada"
  | .illegal before after => "transición inválida " ++ before.name ++ " -> " ++ after.name

/-- What a cancellation did: the task was canceled, or had ended before. -/
inductive CancelOutcome
  | canceled (before : Status)
  | alreadyTerminal (status : Status)
  deriving DecidableEq, Repr

structure TaskRecord where
  info : TaskInfo
  memory : List MemorySample
  deriving DecidableEq, Repr, Inhabited

/-- The records of tasks, the free slots, and the tasks that hold one. -/
structure Registry where
  free : Nat
  tasks : Store TaskRecord := []
  slots : List String := []
  deriving DecidableEq, Repr, Inhabited

namespace Registry

def acquire? (r : Registry) : Option Registry :=
  if r.free = 0 then none else some { r with free := r.free - 1 }

def dropSlot (r : Registry) (id : String) : Registry :=
  if r.slots.contains id then { r with slots := r.slots.erase id, free := r.free + 1 } else r

/-- Adds a task, in place of any record of its identifier; it may bring a slot taken before, which
replaces one it holds. -/
def insert (r : Registry) (info : TaskInfo) (withSlot : Bool) : Registry :=
  let r := if withSlot then
      let r := r.dropSlot info.id
      { r with slots := info.id :: r.slots }
    else r
  { r with tasks := r.tasks.insert info.id ⟨info, []⟩ }

def get? (r : Registry) (id : String) : Option TaskInfo := (r.tasks.get? id).map (·.info)

/-- The order in which tasks are listed: by creation, then by identifier. -/
def listedBefore (a b : TaskInfo) : Bool :=
  if a.createdAt = b.createdAt then a.id ≤ b.id else a.createdAt.le b.createdAt

def list (r : Registry) : List TaskInfo := (r.tasks.values.map (·.info)).mergeSort listedBefore

def update (r : Registry) (id : String) (f : TaskRecord → TaskRecord) : Registry :=
  { r with tasks := r.tasks.modify id f }

/-- The task in its next state: the instants of its start and end are noted. -/
def enter (next : Status) (now : Instant) (t : TaskInfo) : TaskInfo :=
  { t with
    status := next
    startedAt := if next = .running then some now else t.startedAt
    endedAt := if next.isTerminal then some now else t.endedAt }

/-- Brings a task into a state that its life allows, with a change of its record. A task that
completes or fails gives back its slot. -/
def transition (r : Registry) (id : String) (next : Status) (now : Instant)
    (change : TaskInfo → TaskInfo) : Registry × Except TransitionError Status :=
  match r.get? id with
  | none => (r, .error (.notFound id))
  | some t =>
    if t.status.canBecome next then
      let r := r.update id fun rec => { rec with info := change (enter next now rec.info) }
      let r := if next = .completed ∨ next = .failed then r.dropSlot id else r
      (r, .ok t.status)
    else (r, .error (.illegal t.status next))

def markRunning (r : Registry) (id : String) (now : Instant) :
    Registry × Except TransitionError Status :=
  r.transition id .running now fun t => t

def complete (r : Registry) (id : String) (result : ResultRef) (now : Instant) :
    Registry × Except TransitionError Status :=
  r.transition id .completed now fun t =>
    { t with progress := Binary.ofNat 1, resultRef := some result }

def fail (r : Registry) (id : String) (failure : TaskFailure) (now : Instant) :
    Registry × Except TransitionError Status :=
  r.transition id .failed now fun t =>
    { t with message := some failure.text, error := some failure }

def cancel (r : Registry) (id : String) (now : Instant) :
    Registry × Except TransitionError CancelOutcome :=
  match r.transition id .canceled now fun t => { t with message := some "cancelada" } with
  | (r, .ok before) => (r, .ok (.canceled before))
  | (r, .error (.illegal before _)) => (r, .ok (.alreadyTerminal before))
  | (r, .error (.notFound id)) => (r, .error (.notFound id))

def isRunning (r : Registry) (id : String) : Bool :=
  match r.get? id with
  | some t => t.status == .running
  | none => false

def clampFraction (x : Single) : Single :=
  if !x.isFinite then Binary.zero
  else if x.lt Binary.zero then Binary.zero
  else if (Binary.ofNat 1).lt x then Binary.ofNat 1
  else x

def setProgress (r : Registry) (id : String) (fraction : Single) (message : Option String) :
    Registry × Bool :=
  if r.isRunning id then
    (r.update id fun rec =>
      { rec with info := { rec.info with
        progress := rec.info.progress.max (clampFraction fraction)
        message := message.or rec.info.message } }, true)
  else (r, false)

def recordMemory (r : Registry) (id : String) (sample : MemorySample) : Registry × Bool :=
  if r.isRunning id then
    (r.update id fun rec => { rec with memory := rec.memory ++ [sample] }, true)
  else (r, false)

def memory (r : Registry) (id : String) : List MemorySample :=
  ((r.tasks.get? id).map (·.memory)).getD []

/-- Gives back the slot of a task; tells whether it held one. -/
def releaseSlot (r : Registry) (id : String) : Registry × Bool :=
  (r.dropSlot id, r.slots.contains id)

def remove (r : Registry) (id : String) : Registry × Option TaskInfo :=
  ({ r with tasks := r.tasks.erase id }, r.get? id)

def activeIds (r : Registry) : List String :=
  (r.tasks.values.filter fun rec => !rec.info.status.isTerminal).map (·.info.id)

def isExpired (now : Instant) (ttl : Int) (t : TaskInfo) : Bool :=
  t.status.isTerminal && match t.endedAt with
    | some ended => now.since ended > ttl
    | none => false

def expired (r : Registry) (now : Instant) (ttl : Int) : List String :=
  (r.tasks.values.filter fun rec => isExpired now ttl rec.info).map (·.info.id)

def removeAll (r : Registry) : List String → Registry × Nat
  | [] => (r, 0)
  | id :: ids =>
    let (r, gone) := r.remove id
    let (r, n) := r.removeAll ids
    (r, if gone.isSome then n + 1 else n)

/-- Forgets the tasks that ended more than `ttl` nanoseconds ago, and counts them. -/
def sweep (r : Registry) (now : Instant) (ttl : Int) : Registry × Nat :=
  r.removeAll (r.expired now ttl)

end Registry

end TaskFlow
