import TaskFlow.FileSystem.Basic
import TaskFlow.Manager.Cache
import TaskFlow.Manager.Config
import TaskFlow.Manager.Registry
import TaskFlow.Worker.Supervision

namespace TaskFlow

/-- A launched worker: what it was given, and the stop requests that its supervisor was sent. -/
structure Launch where
  assignment : Assignment
  stops : List StopMode := []
  deriving Inhabited

/-- A manager at an instant. Its workers are those that were launched and have not ended; its
supervisors are the tasks to which stop requests can be sent. -/
structure Manager where
  config : Config
  now : Instant
  registry : Registry
  cache : Cache
  files : FileSystem
  accepting : Bool := true
  sweeping : Bool := false
  workers : Store Launch := []
  supervisors : List String := []

namespace Manager

/-- The longest time, in milliseconds, that can be taken off an instant. -/
def longestTtl : Nat := UInt64.size / 2 - 1

/-- A new manager; the folder for artifacts is made if it is missing. -/
def start (config : Config) (files : FileSystem) (now : Instant) : Except FileError Manager :=
  match files.makeFolders config.spoolDir with
  | (_, .error e) => .error e
  | (files, .ok ()) => .ok
    { config, now, files
      registry := { free := config.maxConcurrency }
      cache := { maxBytes := config.cacheMaxBytes }
      sweeping := config.taskTtl.any (· ≤ longestTtl) }

def artifactPath (m : Manager) (id : String) : String := joinPath m.config.spoolDir (id ++ ".jsonl")

def assignment (m : Manager) (id : String) (job : Job) : Assignment :=
  { taskId := id, artifactPath := m.artifactPath id, job }

def launch (m : Manager) (id : String) (job : Job) : Manager :=
  { m with workers := m.workers.insert id { assignment := m.assignment id job } }

/-- The manager with a stop request sent to the supervisor of a worker; tells whether there is
one. -/
def send (m : Manager) (id : String) (mode : StopMode) : Manager × Bool :=
  ({ m with workers := m.workers.modify id fun l => { l with stops := l.stops ++ [mode] } },
    m.workers.has id)

end Manager

end TaskFlow
