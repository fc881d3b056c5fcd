import TaskFlow.Manager.Operations
import TaskFlow.Worker.Child

namespace TaskFlow

/-- A worker process of a manager: the stop requests it has taken, and since when its memory is
watched. -/
structure Attendance where
  child : Child
  stopsTaken : Nat := 0
  watchedSince : Option Nat := none

/-- A manager with its processes in order of launch, the time since its start, its requests so far,
and the memory that a process uses. -/
structure Service where
  manager : Manager
  origin : Instant
  children : List (String × Attendance) := []
  clock : Nat := 0
  requests : Nat := 0
  residentBytes : Nat := 1024 * 1024

/-- What a shutdown did: the tasks it canceled and the workers that it had to end by force. -/
structure ShutdownReport where
  canceled : Nat
  forced : Nat
  deriving DecidableEq, Repr

namespace Service

def start (config : Config) (files : FileSystem) (origin : Instant) : Except FileError Service :=
  (Manager.start config files origin).map fun manager => { manager, origin }

def perMillisecond : Nat := 1000000

/-- The service a little later, so that no two requests have the same instant. -/
def later (s : Service) : Service :=
  let requests := s.requests + 1
  { s with
    requests
    manager := { s.manager with now := s.origin.plus (s.clock * perMillisecond + requests) } }

def launched (s : Service) (program : Program) : List (String × Attendance) :=
  (s.manager.workers.filter fun w => !(s.children.any (·.1 == w.1))).map fun w =>
    (w.1, { child := .launch program w.2.assignment s.manager.config.cancelGrace s.clock })

def deliverStops (s : Service) (id : String) (a : Attendance) : Attendance :=
  let stops := ((s.manager.workers.get? id).map (·.stops)).getD []
  { a with
    child := (stops.drop a.stopsTaken).foldl (fun c mode => c.stop s.clock mode) a.child
    stopsTaken := stops.length }

/-- The service with the processes of new workers, and with all stop requests taken. -/
def attend (s : Service) (program : Program) : Service :=
  let s := { s with children := s.children ++ s.launched program }
  { s with children := s.children.map fun c => (c.1, s.deliverStops c.1 c.2) }

def perform {α : Type} (s : Service) (op : Manager.Op α) (program : Program) : Service × α :=
  let s := s.later
  let (manager, a) := op.run s.manager
  ({ s with manager }.attend program, a)

def request {α : Type} (s : Service) (op : Manager.Op α) : Service × α := s.perform op .missing

def act {α : Type} (s : Service) (op : Manager.Op α) : Service := (s.request op).1

def submit (s : Service) (program : Program) (id : String) (kind : JobKind) (payload : Json) :
    Service × Except TaskError String :=
  s.perform (Manager.submit id kind payload program.launchError?) program

def sweepIfDue (s : Service) : Service :=
  match s.manager.config.taskTtl with
  | some ttl =>
    if s.manager.sweeping && s.clock % max s.manager.config.sweepInterval 1 = 0 then
      s.act (Manager.sweep (ttl * perMillisecond))
    else s
  | none => s

def sample (s : Service) (id : String) : Service :=
  s.act (Manager.noteMemory id s.residentBytes)

/-- Notes the messages of a worker; tells whether its task began to run. -/
def observeAll (s : Service) (id : String) : List Message → Service × Bool
  | [] => (s, false)
  | m :: ms =>
    let (s, began) := s.request (Manager.observe id m)
    let (s, more) := s.observeAll id ms
    (s, began || more)

def sampleIsDue (s : Service) (a : Attendance) : Bool :=
  match a.watchedSince with
  | some time => (s.clock - time) % max s.manager.config.memoryInterval 1 = 0
  | none => false

def tickChild (s : Service) (id : String) : Service :=
  match s.children.find? (·.1 == id) with
  | none => s
  | some (_, a) =>
    let (child, files, ms) := a.child.tick s.clock s.manager.files
    let s := { s with manager := { s.manager with files } }
    let (s, began) := s.observeAll id ms
    match child.outcome? s.clock with
    | some outcome =>
      { s with children := s.children.eraseP (·.1 == id) }.act (Manager.conclude id outcome)
    | none =>
      let a := { a with child, watchedSince := if began then some s.clock else a.watchedSince }
      let s := { s with children := s.children.map fun (i, b) => (i, if i == id then a else b) }
      if s.sampleIsDue a then s.sample id else s

/-- A moment of all: time goes on, and everybody does what is due. -/
def tick (s : Service) : Service :=
  let s := { s with clock := s.clock + 1 }.sweepIfDue
  (s.children.map (·.1)).foldl tickChild s

/-- Lets time go on until a condition holds, for a number of milliseconds at most. -/
def advance (until_ : Service → Bool) : Nat → Service → Service
  | 0, s => s
  | n + 1, s => if until_ s then s else advance until_ n s.tick

def sleep (s : Service) (milliseconds : Nat) : Service := s.advance (fun _ => false) milliseconds

/-- The time, in milliseconds, that a worker has to end after a shutdown has forced it. -/
def forceWait : Nat := 2000

def remaining (s : Service) (ids : List String) : List String :=
  ids.filter s.manager.workers.has

def await (s : Service) (ids : List String) (milliseconds : Nat) : Service :=
  s.advance (fun s => (s.remaining ids).isEmpty) milliseconds

/-- Shuts down: the workers are asked to stop, and those that do not stop in time are ended by
force. -/
def shutdown (s : Service) : Service × ShutdownReport :=
  let (s, canceled, pending) := s.request Manager.beginShutdown
  let s := s.await pending s.manager.config.shutdownTimeout
  let stragglers := s.remaining pending
  let s := (s.act (Manager.sendAll .force stragglers)).await stragglers forceWait
  (s, ⟨canceled, stragglers.length⟩)

end Service

end TaskFlow
