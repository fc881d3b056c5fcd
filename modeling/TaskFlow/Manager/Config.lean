import TaskFlow.FileSystem.Basic
import TaskFlow.Text.Blank

namespace TaskFlow

/-- The configuration of a manager; times are in milliseconds. -/
structure Config where
  maxConcurrency : Nat
  workerProgram : String
  workerArgs : List String
  spoolDir : String
  cancelGrace : Nat
  shutdownTimeout : Nat
  memoryInterval : Nat
  cacheMaxBytes : Nat
  taskTtl : Option Nat
  sweepInterval : Nat
  deriving DecidableEq, Repr

abbrev Environment := List (String × Text.Bytes)

namespace Environment

def raw? (env : Environment) (name : String) : Option Text.Bytes :=
  (env.find? (·.1 == name)).map (·.2)

def text? (env : Environment) (name : String) : Option String :=
  (env.raw? name).bind Text.fromUtf8?

end Environment

def maxNatural : Nat := UInt64.size - 1

/-- The natural number of 64 bits that a text spells: digits, perhaps after a plus sign. -/
def natural64? (s : String) : Option Nat :=
  let ds := match s.toList with
    | '+' :: ds => ds
    | ds => ds
  if ds.isEmpty || !ds.all Char.isDigit then none
  else
    let n := ds.foldl (fun n c => n * 10 + (c.toNat - '0'.toNat)) 0
    if n ≤ maxNatural then some n else none

namespace Config

def temporaryFolder (env : Environment) : String :=
  match env.raw? "TMPDIR" with
  | some bytes => Text.fromUtf8Lossy bytes
  | none => "/tmp"

/-- The configuration without any variables; the program is the one beside the manager. -/
def default (program temporary : String) : Config :=
  { maxConcurrency := 4
    workerProgram := program
    workerArgs := []
    spoolDir := joinPath temporary "flow-tasks"
    cancelGrace := 5000
    shutdownTimeout := 30 * 1000
    memoryInterval := 1000
    cacheMaxBytes := 1024 * 1024 * 1024
    taskTtl := none
    sweepInterval := 60 * 1000 }

def number? (env : Environment) (name : String) : Option Nat :=
  (env.text? name).bind fun s => natural64? (Text.trim s)

def positive? (env : Environment) (name : String) : Option Nat :=
  (number? env name).filter (0 < ·)

def ofEnvironment (program : String) (env : Environment) : Config :=
  let d := default program (temporaryFolder env)
  { maxConcurrency := (positive? env "MAX_CONCURRENCY").getD d.maxConcurrency
    workerProgram := (env.text? "WORKER_BIN").getD d.workerProgram
    workerArgs := d.workerArgs
    spoolDir := (env.text? "SPOOL_DIR").getD d.spoolDir
    cancelGrace := (number? env "CANCEL_GRACE_MS").getD d.cancelGrace
    shutdownTimeout :=
      ((number? env "SHUTDOWN_TIMEOUT_SECS").map (· * 1000)).getD d.shutdownTimeout
    memoryInterval := (positive? env "MEMORY_SAMPLE_MS").getD d.memoryInterval
    cacheMaxBytes := (number? env "CACHE_MAX_BYTES").getD d.cacheMaxBytes
    taskTtl := (number? env "TASK_TTL_SECS").map (· * 1000)
    sweepInterval := ((positive? env "SWEEP_INTERVAL_SECS").map (· * 1000)).getD d.sweepInterval }

end Config

end TaskFlow
