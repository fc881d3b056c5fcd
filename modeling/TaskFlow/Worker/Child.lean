import TaskFlow.Worker.Script
import TaskFlow.Worker.Supervision

namespace TaskFlow

inductive Program
  /-- The worker of this library. -/
  | worker
  | script (actions : List Action)
  /-- No program at all. -/
  | missing
  deriving DecidableEq, Repr

/-- The error of the launch of a program, if it cannot be launched. -/
def Program.launchError? : Program → Option FileError
  | .missing => some .notFound
  | _ => none

/-- A running process: its input and behavior, when it gets going, how it takes a request to
terminate, its output, and how and when it ends. -/
structure Process where
  assignment : Assignment
  program : Program
  start : Nat
  ignoresTerminate : Bool := false
  terminated : Option Nat := none
  output : Text.Bytes := []
  wake : Nat
  ending : Option (ExitStatus × Nat) := none

namespace Process

def moment : Nat := 1

def terminateSignal : Nat := 15

def killSignal : Nat := 9

def launch (program : Program) (a : Assignment) (now : Nat) : Process :=
  { assignment := a, program, start := now + moment, wake := now + moment }

def hasEnded (p : Process) (now : Nat) : Bool :=
  match p.ending with
  | some (_, time) => time ≤ now
  | none => false

def endBy (p : Process) (signal now : Nat) : Process :=
  if p.ending.isSome then p else { p with ending := some (.signal signal, now + moment) }

/-- A process that is asked to terminate. A job looks for that by itself once it goes. -/
def terminate (p : Process) (now : Nat) : Process :=
  if now < p.start then p.endBy terminateSignal now
  else match p.program with
    | .worker => { p with terminated := some (p.terminated.getD now) }
    | _ => if p.ignoresTerminate then p else p.endBy terminateSignal now

def kill (p : Process) (now : Nat) : Process := p.endBy killSignal now

/-- What surrounds a job that is seen now: it is canceled when the request to terminate came, and
nothing is known of the future. -/
def conditions (p : Process) (now : Nat) : Conditions where
  canceled m := now < p.start + m.elapsed || match p.terminated with
    | some time => time ≤ p.start + m.elapsed
    | none => false

def outputOf (ms : List Message) : Text.Bytes := ms.flatMap fun m => Text.utf8 m.line

def seeJob (p : Process) (now : Nat) (files : FileSystem) : Process × FileSystem :=
  let input := Text.utf8 (p.assignment.toJson.text ++ "\n")
  let t := Worker.process input files (p.conditions now)
  let p := { p with output := outputOf t.messages }
  if p.start + t.elapsed ≤ now then ({ p with ending := some (t.exit, now) }, t.files)
  else ({ p with wake := p.start + t.elapsed }, files)

def seeScript (p : Process) (actions : List Action) (now : Nat) (files : FileSystem) :
    Process × FileSystem :=
  let (s, pause) := Script.play p.assignment ⟨files, p.output, p.ignoresTerminate⟩ actions
  let p := { p with output := s.output, ignoresTerminate := s.ignoresTerminate }
  match pause with
  | .waiting rest => ({ p with program := .script rest }, s.files)
  | .ended exit => ({ p with ending := some (exit, now) }, s.files)

def see (p : Process) (now : Nat) (files : FileSystem) : Process × FileSystem :=
  if p.ending.isSome || now < p.wake then (p, files)
  else match p.program with
    | .worker => p.seeJob now files
    | .script actions => p.seeScript actions now files
    | .missing => (p, files)

/-- The part of an output that can be read in lines: all of it when no more comes. -/
def readable (output : Text.Bytes) (closed : Bool) : Text.Bytes :=
  if closed then output
  else (output.reverse.dropWhile (· ≠ Text.newline)).reverse

def messages (p : Process) (now : Nat) : List Message :=
  Message.ofStream (readable p.output (p.hasEnded now))

end Process

/-- A process under supervision, with the number of its messages that were taken. -/
structure Child where
  process : Process
  supervision : Supervision
  taken : Nat := 0

namespace Child

def launch (program : Program) (a : Assignment) (grace now : Nat) : Child :=
  { process := .launch program a now, supervision := { grace } }

def react (c : Child) (now : Nat) : List Reaction → Child
  | [] => c
  | .terminate :: rs => { c with process := c.process.terminate now }.react now rs
  | .kill :: rs => { c with process := c.process.kill now }.react now rs
  | _ :: rs => c.react now rs

def delivered (rs : List Reaction) : List Message :=
  rs.filterMap fun
    | .deliver m => some m
    | _ => none

def occur (c : Child) (now : Nat) (o : Occurrence) : Child × List Message :=
  let (supervision, rs) := c.supervision.step o
  ({ c with supervision }.react now rs, delivered rs)

def stop (c : Child) (now : Nat) (mode : StopMode) : Child :=
  (c.occur now (.request mode now true true)).1

def graceIsOver (c : Child) (now : Nat) : Bool :=
  match c.supervision.deadline with
  | some time => time ≤ now
  | none => false

def takeMessages (c : Child) (now : Nat) : List Message → Child × List Message
  | [] => (c, [])
  | m :: ms =>
    let (c, first) := { c with taken := c.taken + 1 }.occur now (.message m)
    let (c, rest) := c.takeMessages now ms
    (c, first ++ rest)

/-- A moment of a worker: its grace may be over, it goes on, and its messages are delivered. -/
def tick (c : Child) (now : Nat) (files : FileSystem) : Child × FileSystem × List Message :=
  let c := if c.graceIsOver now then (c.occur now .graceOver).1 else c
  let (process, files) := c.process.see now files
  let (c, ms) := { c with process }.takeMessages now ((process.messages now).drop c.taken)
  (c, files, ms)

def outcome? (c : Child) (now : Nat) : Option Outcome :=
  match c.process.ending with
  | some (exit, time) => if time ≤ now then some (c.supervision.outcome exit) else none
  | none => none

abbrev Stops := List (Nat × StopMode)

def makeStops (c : Child) (now seen : Nat) (stops : Stops) : Child × Stops :=
  ((stops.filter (·.1 ≤ seen)).foldl (fun c s => c.stop now s.2) c, stops.filter (seen < ·.1))

/-- Supervises a worker alone, for at most `fuel` moments from now: the files, the messages that
were delivered and what became of it. -/
def superviseFrom (stops : Stops) : Nat → Child → Nat → FileSystem → List Message →
    FileSystem × List Message × Option Outcome
  | 0, _, _, files, seen => (files, seen, none)
  | fuel + 1, c, now, files, seen =>
    let (c, files, ms) := c.tick now files
    let seen := seen ++ ms
    match c.outcome? now with
    | some o => (files, seen, some o)
    | none =>
      let (c, stops) := c.makeStops now seen.length stops
      superviseFrom stops fuel c (now + 1) files seen

end Child

end TaskFlow
