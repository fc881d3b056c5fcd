import TaskFlow.Manager.Operations
import TaskFlow.Worker.Child

namespace TaskFlow

/-- What a worker does under supervision: its grace, what occurs before it ends, how it ends, and
the messages still on their way then. -/
structure Course where
  grace : Nat
  before : List Occurrence
  exit : ExitStatus
  rest : List Message

namespace Course

def messages (c : Course) : List Message :=
  Child.delivered (Supervision.supervise c.grace c.before c.exit c.rest).1

def outcome (c : Course) : Outcome := (Supervision.supervise c.grace c.before c.exit c.rest).2

end Course

namespace Manager

def observeAll (id : String) : List Message → Op Unit
  | [] => return ()
  | m :: ms => do
    let _ ← observe id m
    observeAll id ms

def supervise (id : String) (c : Course) : Op Unit := do
  observeAll id c.messages
  conclude id c.outcome

/-- What a thread of a manager is there for. -/
inductive Role
  | submission (id : String) (kind : JobKind) (payload : Json) (launchError? : Option FileError)
  | status (id : String)
  | list
  | result (id : String)
  | memory (id : String)
  | cancellation (id : String)
  | deletion (id : String)
  | acknowledgement (id : String)
  | sweep (ttl : Int)
  | sampling (id : String) (bytes : Nat)
  | shutdown
  | supervision (id : String) (course : Course)

namespace Role

abbrev Reply : Role → Type
  | .submission .. => Except TaskError String
  | .status _ => Except TaskError TaskInfo
  | .list => List TaskInfo
  | .result _ => Except TaskError Table
  | .memory _ => List MemorySample
  | .cancellation _ => Except TaskError CancelAck
  | .deletion _ | .acknowledgement _ => Except TaskError Unit
  | .sweep _ => Nat
  | .sampling .. => Bool
  | .shutdown => Nat × List String
  | .supervision .. => Unit

def procedure : (r : Role) → Op r.Reply
  | .submission id kind payload launchError? => submit id kind payload launchError?
  | .status id => Manager.status id
  | .list => Manager.list
  | .result id => Manager.result id
  | .memory id => Manager.memory id
  | .cancellation id => cancel id
  | .deletion id => delete id
  | .acknowledgement id => acknowledge id
  | .sweep ttl => Manager.sweep ttl
  | .sampling id bytes => noteMemory id bytes
  | .shutdown => beginShutdown
  | .supervision id course => supervise id course

/-- Whether two threads may be there together: every submission brings an identifier of its own, a
worker has one supervision, and there is one shutdown. -/
def Beside : Role → Role → Prop
  | .submission id .., .submission key .. => id ≠ key
  | .supervision id _, .supervision key _ => id ≠ key
  | .shutdown, .shutdown => False
  | _, _ => True

end Role

/-- A thread, with what it has left to do. -/
structure Thread where
  role : Role
  rest : Op role.Reply

namespace Thread

def start (r : Role) : Thread := ⟨r, r.procedure⟩

/-- Whether a thread has a slot that it is about to put into the registry. -/
def carriesSlot (t : Thread) : Bool :=
  match t.rest.next? with
  | some (.record ..) => true
  | _ => false

end Thread

/-- A manager with its threads, those that are done included. -/
structure System where
  manager : Manager
  threads : List Thread

namespace System

/-- The slots that are taken: those in the registry, and those on their way there. -/
def slotsTaken (s : System) : Nat :=
  s.manager.registry.slots.length + s.threads.countP Thread.carriesSlot

/-- Whether a thread may start: it may be there beside the others, and only a worker that was
launched is supervised. -/
def Admits (s : System) (role : Role) : Prop :=
  (∀ t ∈ s.threads, t.role.Beside role) ∧
    ∀ id c, role = .supervision id c → s.manager.workers.has id = true

end System

/-- An action that a thread took, and what it found. -/
structure Event where
  before : System
  role : Role
  action : Action

def Event.after (e : Event) : Manager := (e.action.apply e.before.manager).1

/-- The runs of a manager: what happened so far, and how things are now. -/
inductive Run (config : Config) : List Event → System → Prop
  | start {files : FileSystem} {now : Instant} {m : Manager} :
    Manager.start config files now = .ok m → Run config [] ⟨m, []⟩
  | call {es : List Event} {s : System} (role : Role) :
    Run config es s → s.Admits role →
    Run config es { s with threads := s.threads ++ [.start role] }
  | act {es : List Event} {m : Manager} {before after : List Thread} {role : Role}
    {action : Action} {rest : action.Answer → Op role.Reply} :
    Run config es ⟨m, before ++ ⟨role, .take action rest⟩ :: after⟩ →
    Run config (es ++ [⟨⟨m, before ++ ⟨role, .take action rest⟩ :: after⟩, role, action⟩])
      ⟨(action.apply m).1, before ++ ⟨role, rest (action.apply m).2⟩ :: after⟩
  | elapse {es : List Event} {s : System} (now : Instant) :
    Run config es s → Run config es { s with manager := { s.manager with now } }
  | write {es : List Event} {s : System} (files : FileSystem) :
    Run config es s → Run config es { s with manager := { s.manager with files } }

end Manager

end TaskFlow
