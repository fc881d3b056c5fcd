import TaskFlow.FileSystem.Glob
import TaskFlow.Job.Validation
import TaskFlow.Rows.FuzzyJoin
import TaskFlow.Table.Files
import TaskFlow.Worker.Message

namespace TaskFlow

inductive JobError
  | canceled
  | storage (e : StorageError)
  | application (message : String)
  | aborted
  deriving DecidableEq, Repr

def JobError.text : JobError → String
  | .canceled => "cancelado"
  | .storage e => "error de E/S: " ++ e.text
  | .application message => message
  | .aborted => "abortado"

structure JobOutput where
  rows : Nat
  bytes : Nat
  deriving DecidableEq, Repr

/-- A moment of a run: how often the job looked for a cancellation, how many messages it wrote and
how long it slept, in milliseconds. -/
structure RunMoment where
  checks : Nat
  sent : Nat
  elapsed : Nat
  deriving DecidableEq, Repr

/-- What surrounds a run: at which moments it is canceled, and which of its reports, counted from
one, can be written. -/
structure Conditions where
  canceled : RunMoment → Bool := fun _ => false
  writable : Nat → Bool := fun _ => true

/-- The state of a run: the files, the messages that were written, and the counts. -/
structure Session where
  files : FileSystem
  messages : List Message := []
  attempts : Nat := 0
  checks : Nat := 0
  elapsed : Nat := 0

def Session.moment (s : Session) : RunMoment := ⟨s.checks, s.messages.length, s.elapsed⟩

abbrev Run (α : Type) := ReaderT Conditions (ExceptT JobError (StateM Session)) α

namespace Run

def check : Run Unit := do
  modify fun s => { s with checks := s.checks + 1 }
  if (← read).canceled (← get).moment then throw .canceled

def progress (fraction : Single) (message : String) : Run Unit := do
  let c ← read
  modify fun s =>
    let s := { s with attempts := s.attempts + 1 }
    if c.writable s.attempts then
      { s with messages := s.messages ++ [.progress fraction (some message)] }
    else s

/-- The share of the work that is done, where the last twentieth is left to the manager. -/
def share (done total : Nat) : Single :=
  ((Binary.ofRatio false 95 100).mul (.ofNat done)).div (.ofNat total)

def reading {α : Type} (f : FileSystem → Except StorageError α) : Run α := do
  match f (← get).files with
  | .ok a => return a
  | .error e => throw (.storage e)

def writing {α : Type} (f : FileSystem → FileSystem × Except StorageError α) : Run α := do
  let (files, r) := f (← get).files
  modify fun s => { s with files }
  match r with
  | .ok a => return a
  | .error e => throw (.storage e)

/-- The longest time, in milliseconds, that a sleeping job does not look for a cancellation. -/
def sleepSlice : Nat := 50

def sleepUntil (deadline : Nat) : Nat → Run Unit
  | 0 => check
  | slices + 1 => do
    check
    let now := (← get).elapsed
    if now < deadline then
      modify fun s => { s with elapsed := now + min sleepSlice (deadline - now) }
      sleepUntil deadline slices

def sleep (milliseconds : Nat) : Run Unit := do
  let now := (← get).elapsed
  sleepUntil (now + milliseconds) ((milliseconds + sleepSlice - 1) / sleepSlice)

def step (current : List Row) : Step → Run (List Row)
  | .rows rows => return rows
  | .readCsv path => reading (·.readCsv path)
  | .readJsonl path => reading (·.readJsonl path)
  | .filter field equals => return Rows.filter field equals current
  | .select fields => return Rows.select fields current
  | .reduceByKey key value => return Rows.reduceByKey key value current
  | .join path key => do
    let right ← reading (·.readRows path)
    return Rows.joinByKey key current right
  | .limit n => return current.take n
  | .sleep ms => do
    sleep ms
    return current
  | .fail message => throw (.application message)
  | .abort => throw .aborted

def stepReport (done total rows : Nat) : String :=
  "paso " ++ toString done ++ "/" ++ toString total ++ " (" ++ toString rows ++ " filas)"

def stepsFrom (total : Nat) : Nat → List Row → List Step → Run (List Row)
  | _, current, [] => return current
  | done, current, s :: ss => do
    check
    let rows ← step current s
    progress (share (done + 1) total) (stepReport (done + 1) total rows.length)
    stepsFrom total (done + 1) rows ss

def steps (ss : List Step) : Run (List Row) := stepsFrom ss.length 0 [] ss

/-- Writes the rows of a script to a file; the table tells about the file. -/
def writeResults (ss : List Step) (path : String) (format : FileFormat) : Run Table := do
  let table := Table.ofRows (← steps ss)
  check
  match format with
  | .csv => writing (·.writeCsv path table)
  | .jsonl => let _ ← writing (·.writeJsonl path table)
  return Table.ofRows [Json.ofFields [("path", .str path), ("format", .str format.name),
    ("rows", Json.ofNat table.length)]]

def readAs (format : InputFormat) (path : String) : Run (List Row) :=
  match format with
  | .csv => reading (·.readCsv path)
  | .jsonl => reading (·.readJsonl path)
  | .infer => reading (·.readRows path)

/-- The rows of the files that follow the first `done` of `total`. -/
def filesFrom (format : InputFormat) (total : Nat) :
    Nat → List Row → List String → Run (List Row)
  | _, rows, [] => return rows
  | done, rows, path :: paths => do
    check
    let more ← readAs format path
    progress (share (done + 1) total)
      ("archivo " ++ toString (done + 1) ++ "/" ++ toString total)
    filesFrom format total (done + 1) (rows ++ more) paths

/-- The table of all files that match a pattern, in the order of their paths. -/
def createTable (pattern : String) (format : InputFormat) : Run Table := do
  match (← get).files.globFiles pattern with
  | .error e =>
    throw (.application ("patrón input_glob inválido " ++ pattern ++ ": " ++ e.text))
  | .ok paths => return Table.ofRows (← filesFrom format paths.length 0 [] paths)

def load : DataSource → Run (List Row)
  | .rows rows => return rows
  | .csv path => reading (·.readCsv path)
  | .jsonl path => reading (·.readJsonl path)

def hasColumn (column : String) (rows : List Row) : Bool := rows.any fun r => (r.field? column).isSome

def chunkSize : Nat := 64

/-- A list cut into pieces of the chunk size, given a bound for their number. -/
def chunks {α : Type} : Nat → List α → List (List α)
  | 0, _ => []
  | n + 1, xs => if xs.isEmpty then [] else xs.take chunkSize :: chunks n (xs.drop chunkSize)

/-- The joined rows of the chunks that follow the first `done` of `total` left rows. -/
def chunksFrom (keys : Rows.FuzzyKeys) (right : List Row) (total : Nat) :
    Nat → List Row → List (List Row) → Run (List Row)
  | _, out, [] => return out
  | done, out, chunk :: rest => do
    check
    let out := out ++ Rows.fuzzyJoin keys chunk right
    let done := done + chunk.length
    progress (share done total)
      (toString done ++ "/" ++ toString total ++ " filas comparadas")
    chunksFrom keys right total done out rest

/-- Checks that rows have the column they are joined on; no rows need none. -/
def checkColumn (column side : String) (rows : List Row) : Run Unit := do
  if !hasColumn column rows && !rows.isEmpty then
    throw (.application ("la columna " ++ column ++ " no existe en el lado " ++ side))

def fuzzyJoin (left right : DataSource) (keys : Rows.FuzzyKeys) : Run Table := do
  let left ← load left
  let right ← load right
  check
  checkColumn keys.leftOn "izquierdo" left
  checkColumn keys.rightOn "derecho" right
  return Table.ofRows (← chunksFrom keys right left.length 0 [] (chunks left.length left))

def table : Job → Run Table
  | .execute ss => return Table.ofRows (← steps ss)
  | .writeResults ss path format => writeResults ss path format
  | .createTable pattern format => createTable pattern format
  | .fuzzyJoin left right leftOn rightOn threshold =>
    fuzzyJoin left right ⟨leftOn, rightOn, threshold⟩

def job (j : Job) (artifactPath : String) : Run JobOutput := do
  let t ← table j
  check
  let bytes ← writing (·.writeJsonl artifactPath t)
  return ⟨t.length, bytes⟩

end Run

def Job.run (j : Job) (artifactPath : String) (conditions : Conditions) (s : Session) :
    Except JobError JobOutput × Session :=
  (Run.job j artifactPath).run conditions |>.run |>.run s

end TaskFlow
