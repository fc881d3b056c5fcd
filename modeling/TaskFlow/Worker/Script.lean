import TaskFlow.FileSystem.Basic
import TaskFlow.Worker.Process

namespace TaskFlow

inductive Action
  /-- Writes a line, in which `$ARTIFACT` stands for the artifact path. -/
  | print (line : String)
  /-- Writes bytes as they are. -/
  | write (content : Text.Bytes)
  /-- Writes to the error output, which nobody reads. -/
  | complain
  /-- Writes the artifact file. -/
  | artifact (content : Text.Bytes)
  /-- Makes a folder where the artifact file should be. -/
  | artifactFolder
  /-- Writes what the worker was given to a file. -/
  | saveInput (path : String)
  /-- Waits until a path leads somewhere. -/
  | awaitPath (path : String)
  /-- From now on a request to terminate is ignored. -/
  | ignoreTerminate
  /-- Waits forever. -/
  | hang
  /-- Ends with a code. -/
  | exit (code : Int)
  /-- Sends itself a signal. -/
  | raise (signal : Nat)
  deriving DecidableEq, Repr

namespace Script

/-- What a scripted worker has done: its output, its files, and whether it ignores requests to
terminate. -/
structure Stage where
  files : FileSystem
  output : Text.Bytes := []
  ignoresTerminate : Bool := false

/-- How far a script got: it waits with the rest of its actions, or it ended. -/
inductive Pause
  | waiting (rest : List Action)
  | ended (exit : ExitStatus)
  deriving DecidableEq, Repr

/-- Signals that do nothing to a process that has not asked for them. -/
def harmless (signal : Nat) : Bool := [0, 17, 18, 23, 28].contains signal || 64 < signal

def pausing (signal : Nat) : Bool := [19, 20, 21, 22].contains signal

def lineOf (a : Assignment) (line : String) : Text.Bytes :=
  Text.utf8 (line.replace "$ARTIFACT" a.artifactPath ++ "\n")

/-- What a worker is given: its identifier, its artifact path and its input. -/
def inputOf (a : Assignment) : Text.Bytes :=
  Text.utf8 (a.taskId ++ "|" ++ a.artifactPath ++ "|" ++ a.toJson.text ++ "\n")

def play (a : Assignment) : Stage → List Action → Stage × Pause
  | s, [] => (s, .ended (.code 0))
  | s, act :: acts =>
    match act with
    | .print line => play a { s with output := s.output ++ lineOf a line } acts
    | .write content => play a { s with output := s.output ++ content } acts
    | .complain => play a s acts
    | .artifact content => play a { s with files := (s.files.write a.artifactPath content).1 } acts
    | .artifactFolder => play a { s with files := (s.files.makeFolders a.artifactPath).1 } acts
    | .saveInput path => play a { s with files := (s.files.write path (inputOf a)).1 } acts
    | .awaitPath path =>
      if (s.files.find path).toOption.isSome then play a s acts else (s, .waiting (act :: acts))
    | .ignoreTerminate => play a { s with ignoresTerminate := true } acts
    | .hang => (s, .waiting [.hang])
    | .exit code => (s, .ended (.code (code % 256).toNat))
    | .raise signal =>
      if harmless signal then play a s acts
      else if pausing signal then (s, .waiting [.hang])
      else (s, .ended (.signal signal))

end Script

end TaskFlow
