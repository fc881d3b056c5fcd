import TaskFlow.Manager.Action

namespace TaskFlow

structure CancelAck where
  id : String
  status : Status
  deriving DecidableEq, Repr

def CancelAck.toJson (a : CancelAck) : Json :=
  .obj [("id", .str a.id), ("status", a.status.toJson)]

namespace Manager

def info? (id : String) : Op (Option TaskInfo) := perform (.info id)

/-- Sends a stop request to the supervisor of a task; tells whether there was one. -/
def signalStop (id : String) (mode : StopMode) : Op Bool := do
  if ← perform (.isSupervised id) then perform (.send id mode) else return false

def cancelRecord (id : String) : Op (Except TransitionError CancelOutcome) :=
  perform (.cancel id)

/-- Cancels a task and stops its worker. The task must be known; one that has ended stays as it
is. -/
def cancel (id : String) : Op (Except TaskError CancelAck) := do
  match ← cancelRecord id with
  | .error _ => return .error (.notFound id)
  | .ok outcome =>
    if let .canceled _ := outcome then
      let _ ← signalStop id .graceful
    let known ← info? id
    return .ok ⟨id, (known.map (·.status)).getD .canceled⟩

/-- What is left when a worker was launched: it is stopped if its task was canceled or deleted
meanwhile, or if the manager is shutting down. -/
def settle (id : String) : Op Unit := do
  let accepting ← perform .isAccepting
  if !accepting then
    let _ ← cancelRecord id
  let known ← info? id
  if !accepting || known.all (·.status.isTerminal) then
    let _ ← signalStop id .graceful

def releaseSlot (id : String) : Op Bool := perform (.release id)

def forget (id : String) : Op (Option TaskInfo) := perform (.forget id)

/-- Enrolls a job that has a slot. The launch of its worker may fail. -/
def enroll (id : String) (job : Job) (launchError? : Option FileError) :
    Op (Except TaskError String) := do
  perform (.record id job.kind)
  match launchError? with
  | some e =>
    let _ ← forget id
    let _ ← releaseSlot id
    return .error (.launch e.text)
  | none =>
    perform (.launch id job)
    perform (.register id)
    settle id
    return .ok id

/-- Accepts a job under a fresh identifier, if there is a slot for it. -/
def accept (id : String) (job : Job) (launchError? : Option FileError) :
    Op (Except TaskError String) := do
  match ← perform .acquire with
  | .error e => return .error e
  | .ok () => enroll id job launchError?

def submit (id : String) (kind : JobKind) (payload : Json) (launchError? : Option FileError) :
    Op (Except TaskError String) := do
  if !(← perform .isAccepting) then return .error .shuttingDown
  match Job.parse kind payload with
  | .error e => return .error (.invalidPayload e)
  | .ok job => accept id job launchError?

def status (id : String) : Op (Except TaskError TaskInfo) := do
  match ← info? id with
  | some t => return .ok t
  | none => return .error (.notFound id)

def list : Op (List TaskInfo) := perform .list

def memory (id : String) : Op (List MemorySample) := perform (.samples id)

def result (id : String) : Op (Except TaskError Table) := do
  match ← info? id with
  | none => return .error (.notFound id)
  | some t =>
    match t.status with
    | .queued | .running => return .error (.notReady t.id t.status)
    | .canceled => return .error (.canceled t.id)
    | .failed =>
      return .error ((t.error.map TaskError.ofFailure).getD (.application "falla sin detalle"))
    | .completed =>
      match ← perform (.fetch id) with
      | .ok table => return .ok table
      | .error _ => return .error (.notFound id)

def acknowledge (id : String) : Op (Except TaskError Unit) := do
  match ← perform (.acknowledge id) with
  | .ok () => return .ok ()
  | .error (.notFetched _) =>
    let known ← info? id
    return .error (.notReady id ((known.map (·.status)).getD .completed))
  | .error _ => return .error (.notFound id)

/-- Deletes a task and its result; an active one is canceled first. -/
def delete (id : String) : Op (Except TaskError Unit) := do
  match ← status id with
  | .error e => return .error e
  | .ok t =>
    let canceled ← if t.status.isTerminal then pure (.ok ⟨id, t.status⟩) else cancel id
    match canceled with
    | .error e => return .error e
    | .ok _ =>
      let _ ← forget id
      let _ ← perform (.evict id)
      return .ok ()

/-- Notes what a worker reports; tells whether its task began to run. -/
def observe (id : String) : Message → Op Bool
  | .started => do
    match ← perform (.markRunning id) with
    | .ok _ => return true
    | .error _ => return false
  | .progress fraction message => do
    let _ ← perform (.noteProgress id fraction message)
    return false
  | .completed .. | .failed .. => return false

/-- Notes the memory that the worker of a task uses; tells whether the task is running. -/
def noteMemory (id : String) (bytes : Nat) : Op Bool := perform (.noteMemory id bytes)

def recordFailure (id : String) (failure : TaskFailure) : Op Unit := do
  let _ ← perform (.fail id failure)

/-- Keeps a result and completes its task. A task that has ended meanwhile loses the result. -/
def commit (id : String) (table : Table) (bytes : Nat) : Op Unit := do
  match ← perform (.store id table bytes) with
  | .error e => recordFailure id (.application e.text)
  | .ok reference =>
    match ← perform (.complete id reference) with
    | .ok _ => return ()
    | .error _ =>
      let _ ← perform (.evict id)

def removeArtifact (id : String) : Op Unit :=
  perform (.removeArtifact id)

/-- Notes what became of a worker. A task that has ended stays as it is. -/
def finalize (id : String) : Outcome → Op Unit
  | .succeeded .. => do
    let _ ← perform (.markRunning id)
    match ← perform (.load id) with
    | .ok (table, bytes) => commit id table bytes
    | .error e => recordFailure id (.application ("artefacto ilegible: " ++ e.text))
    removeArtifact id
  | .failed e => do
    let _ ← perform (.markRunning id)
    recordFailure id (.application e)
  | .crashed d => do
    let _ ← perform (.markRunning id)
    recordFailure id (.workerCrashed d)
  | .stopped _ => do
    let _ ← cancelRecord id
    removeArtifact id

/-- The end of a supervision: the worker has ended, what became of it is noted, and its slot is
given back. -/
def conclude (id : String) (outcome : Outcome) : Op Unit := do
  perform (.reap id)
  finalize id outcome
  let _ ← releaseSlot id
  perform (.unregister id)

def forgetAll : List String → Op Nat
  | [] => return 0
  | id :: ids => do
    let gone ← forget id
    let n ← forgetAll ids
    return if gone.isSome then n + 1 else n

def sweep (ttl : Int) : Op Nat := do
  forgetAll (← perform (.expired ttl))

def cancelAll : List String → Op Nat
  | [] => return 0
  | id :: ids => do
    let outcome ← cancelRecord id
    let n ← cancelAll ids
    return match outcome with
      | .ok (.canceled _) => n + 1
      | _ => n

def sendAll (mode : StopMode) : List String → Op Unit
  | [] => return ()
  | id :: ids => do
    let _ ← perform (.send id mode)
    sendAll mode ids

/-- Closes the manager, cancels the active tasks and asks all workers to stop; answers how many
tasks were canceled and whose workers were asked. -/
def beginShutdown : Op (Nat × List String) := do
  perform .stopAccepting
  perform .stopSweeping
  let canceled ← cancelAll (← perform .activeIds)
  let pending ← perform .drain
  sendAll .graceful pending
  return (canceled, pending)

end Manager

end TaskFlow
