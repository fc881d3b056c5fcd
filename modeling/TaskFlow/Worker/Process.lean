import TaskFlow.Worker.Run

namespace TaskFlow

/-- How a process ended: by itself with a code, or by a signal. -/
inductive ExitStatus
  | code (n : Nat)
  | signal (n : Nat)
  deriving DecidableEq, Repr, Inhabited

namespace Worker

def exitCompleted : ExitStatus := .code 0

def exitFailed : ExitStatus := .code 1

def exitCanceled : ExitStatus := .code 3

def exitAborted : ExitStatus := .signal 6

def exitPanicked : ExitStatus := .code 101

structure Trace where
  messages : List Message
  exit : ExitStatus
  files : FileSystem
  elapsed : Nat

def assignment (input : Text.Bytes) : Except String Assignment :=
  match Text.fromUtf8? input with
  | none => .error "leyendo la asignación de stdin: stream did not contain valid UTF-8"
  | some s =>
    match Assignment.parse s with
    | .ok a => .ok a
    | .error e => .error ("asignación con formato inválido: " ++ e.message s)

/-- How the thread of a job ended: with a result, or by a panic. -/
inductive Ending
  | returned (result : Except JobError JobOutput)
  | panicked

/-- A thread for jobs: how it ends for an assignment and a state at its start, and the state that it
leaves. -/
abbrev Thread := Assignment → Session → Ending × Session

def jobThread (conditions : Conditions) : Thread := fun a s =>
  let (result, s) := a.job.run a.artifactPath conditions s
  (.returned result, s)

/-- The end of a process whose thread has ended: a job that was canceled after its last check takes
its artifact back, and a panic is not reported. -/
def conclude (a : Assignment) (conditions : Conditions) (ending : Ending) (s : Session) : Trace :=
  let trace (m : Option Message) (exit : ExitStatus) (files : FileSystem) : Trace :=
    ⟨s.messages ++ m.toList, exit, files, s.elapsed⟩
  match ending with
  | .returned (.ok out) =>
    if conditions.canceled { s.moment with checks := s.checks + 1 } then
      trace none exitCanceled ((s.files.remove a.artifactPath).toOption.getD s.files)
    else trace (some (.completed a.artifactPath out.rows out.bytes)) exitCompleted s.files
  | .returned (.error .canceled) => trace none exitCanceled s.files
  | .returned (.error .aborted) => trace none exitAborted s.files
  | .returned (.error e) => trace (some (.failed e.text)) exitFailed s.files
  | .panicked => trace none exitPanicked s.files

def processIn (thread : Thread) (input : Text.Bytes) (files : FileSystem)
    (conditions : Conditions) : Trace :=
  match assignment input with
  | .error reason => ⟨[.failed reason], exitFailed, files, 0⟩
  | .ok a =>
    let (ending, s) := thread a { files, messages := [.started] }
    conclude a conditions ending s

/-- A worker process with its input and its files, under given cancellations. -/
def process (input : Text.Bytes) (files : FileSystem) (conditions : Conditions) : Trace :=
  processIn (jobThread conditions) input files conditions

end Worker

end TaskFlow
