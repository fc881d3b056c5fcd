import TaskFlow.Worker.Process

namespace TaskFlow

/-- How a worker is stopped: it is asked to, or it is ended at once. -/
inductive StopMode
  | graceful
  | force
  deriving DecidableEq, Repr

inductive Outcome
  | succeeded (artifactPath : String) (rows bytes : Nat)
  | failed (error : String)
  | crashed (detail : String)
  | stopped (forced : Bool)
  deriving DecidableEq, Repr

/-- What an end says when it is not the one that the report announced. -/
def ExitStatus.describe (reported : Bool) : ExitStatus → String
  | .signal n => "terminado por la señal " ++ toString n
  | .code 0 =>
    if reported then "salió con código 0 tras reportar éxito" else "salió sin reportar resultado"
  | .code n =>
    if reported then "salió con código " ++ toString n ++ " tras reportar éxito"
    else "salió con código " ++ toString n ++ " sin reportar resultado"

/-- What the end of a worker means that nobody stopped, given the result it reported. -/
def Outcome.ofExit (exit : ExitStatus) (reported : Option Message) : Outcome :=
  match reported, exit with
  | some (.completed path rows bytes), .code 0 => .succeeded path rows bytes
  | some (.failed error), .code _ => .failed error
  | m, e => .crashed (e.describe m.isSome)

/-- What a supervisor learns before the worker ends. A request tells whether the worker can be
signaled and whether somebody waits for its acknowledgement. -/
inductive Occurrence
  | message (m : Message)
  | closed
  | request (mode : StopMode) (now : Nat) (reachable acknowledged : Bool)
  | graceOver
  deriving DecidableEq, Repr

inductive Reaction
  | deliver (m : Message)
  | terminate
  | kill
  | acknowledge
  deriving DecidableEq, Repr

/-- The time of grace, the first result, the strongest stop request, when the worker is killed, and
whether a kill was tried. -/
structure Supervision where
  grace : Nat
  reported : Option Message := none
  stopMode : Option StopMode := none
  deadline : Option Nat := none
  forced : Bool := false
  deriving DecidableEq, Repr

namespace Supervision

def observe (s : Supervision) (m : Message) : Supervision × List Reaction :=
  if m.isTerminal then
    if s.reported.isSome then (s, []) else ({ s with reported := some m }, [.deliver m])
  else (s, [.deliver m])

def observeAll (s : Supervision) : List Message → Supervision × List Reaction
  | [] => (s, [])
  | m :: ms =>
    let (s, now) := s.observe m
    let (s, later) := s.observeAll ms
    (s, now ++ later)

def stronger (mode : StopMode) : Option StopMode → StopMode
  | some .force => .force
  | _ => mode

/-- Takes a stop request. The first one that asks starts the grace; force needs none. -/
def request (s : Supervision) (mode : StopMode) (now : Nat) (reachable : Bool) :
    Supervision × List Reaction :=
  let asked := { s with stopMode := some (stronger mode s.stopMode) }
  match mode with
  | .force => ({ asked with forced := true, deadline := none }, [.kill])
  | .graceful =>
    if s.stopMode.isSome then (asked, [])
    else if reachable then ({ asked with deadline := some (now + s.grace) }, [.terminate])
    else ({ asked with forced := true }, [.terminate, .kill])

def graceOver (s : Supervision) : Supervision × List Reaction :=
  if s.deadline.isSome then ({ s with forced := true, deadline := none }, [.kill]) else (s, [])

def step (s : Supervision) : Occurrence → Supervision × List Reaction
  | .message m => s.observe m
  | .closed => (s, [])
  | .request mode now reachable acknowledged =>
    let (s, rs) := s.request mode now reachable
    (s, rs ++ if acknowledged then [.acknowledge] else [])
  | .graceOver => s.graceOver

def steps (s : Supervision) : List Occurrence → Supervision × List Reaction
  | [] => (s, [])
  | o :: os =>
    let (s, now) := s.step o
    let (s, later) := s.steps os
    (s, now ++ later)

/-- What became of a worker that has ended, its messages all taken. -/
def outcome (s : Supervision) (exit : ExitStatus) : Outcome :=
  if s.stopMode.isSome then .stopped s.forced else .ofExit exit s.reported

/-- A whole supervision: what occurs before the worker ends, its end, and the messages that were
still on their way. -/
def supervise (grace : Nat) (before : List Occurrence) (exit : ExitStatus) (rest : List Message) :
    List Reaction × Outcome :=
  let (s, rs) := ({ grace } : Supervision).steps before
  let (s, last) := s.observeAll rest
  (rs ++ last, s.outcome exit)

end Supervision

end TaskFlow
