import TaskFlow.Cli.Failure
import TaskFlow.Http.Address
import TaskFlow.Manager.Router
import TaskFlow.Manager.Service

namespace TaskFlow.Server

open Cli

def defaultAddress : String := "0.0.0.0:8080"

def addressOf (env : Environment) : String := (env.text? "BIND_ADDR").getD defaultAddress

def shutdownSignals : List Nat := [2, 15]

def exitOn (signal : Nat) : ExitStatus :=
  if shutdownSignals.contains signal then .code 0 else .signal signal

def workerName : String := "worker"

/-- A program that has started, or the files it left and the report of its failure. -/
def start (env : Environment) (files : FileSystem) (now : Instant) :
    Except (FileSystem × Failure) Service :=
  let config := Config.ofEnvironment workerName env
  match Service.start config files now with
  | .error e =>
    .error ((files.makeFolders config.spoolDir).1,
      ⟨"no se pudo preparar el spool de tareas", [e.text]⟩)
  | .ok s =>
    match Http.Address.listen (addressOf env) with
    | .ok _ => .ok s
    | .error e =>
      .error (s.manager.files, ⟨"no se pudo escuchar en " ++ addressOf env, [e.text]⟩)

/-- Answers a request; a submission gets a fresh identifier and is run by a program. -/
def serve (s : Service) (program : Program) (fresh : String) (r : Http.Request) :
    Service × Http.Response :=
  s.perform (Router.handle r fresh program.launchError?) program

end TaskFlow.Server
