import TaskFlow.Binary.Fixed
import TaskFlow.Cli.Failure
import TaskFlow.Client.Command
import TaskFlow.Http.Basic
import TaskFlow.Http.Status
import TaskFlow.Json.Decode
import TaskFlow.Rows.FuzzyJoin
import TaskFlow.Table.Files
import TaskFlow.Task.Info

namespace TaskFlow.Client

open Cli

/-- What a command does: the files it leaves, what it prints, and its failure if it fails. -/
structure Effect where
  files : FileSystem
  output : String := ""
  failure? : Option Failure := none

/-- The payload of a submission: given in the command, or in a file. -/
def payloadOf (files : FileSystem) (payload file : Option String) : Except Failure Json := do
  let raw ← match payload, file with
    | some p, _ => pure p
    | none, some path =>
      let fail (reason : String) : Failure := ⟨"no se pudo leer " ++ path, [reason]⟩
      match files.read path with
      | .error e => throw (fail e.text)
      | .ok content =>
        match Text.fromUtf8? content with
        | some s => pure s
        | none => throw (fail StorageError.notText.text)
    | none, none => throw ⟨"falta --payload o --file", []⟩
  match Json.parse raw with
  | .ok j => return j
  | .error f => throw ⟨"payload JSON inválido", [f.message raw]⟩

def tasksPath : String := "/api/v1/tasks"

def taskPath (id : String) : String := tasksPath ++ "/" ++ id

def request? (files : FileSystem) : Command → Except Failure (Option Http.Request)
  | .submit kind payload file => do
    let payload ← payloadOf files payload file
    let body := Json.obj [("kind", .str kind), ("payload", payload)]
    return some { method := "POST", path := tasksPath
                  contentType := some "application/json", body := body.text }
  | .status id => .ok (some { method := "GET", path := taskPath id })
  | .list => .ok (some { method := "GET", path := tasksPath })
  | .result id _ => .ok (some { method := "GET", path := taskPath id ++ "/result" })
  | .memory id => .ok (some { method := "GET", path := taskPath id ++ "/memory" })
  | .cancel id => .ok (some { method := "POST", path := taskPath id ++ "/cancel" })
  | .delete id => .ok (some { method := "DELETE", path := taskPath id })
  | .ack id => .ok (some { method := "POST", path := taskPath id ++ "/ack" })
  | .fuzzyJoin .. => .ok none

def printed (lines : List String) : String := String.join (lines.map (· ++ "\n"))

def padRight (width : Nat) (s : String) : String := s ++ "".pushn ' ' (width - s.length)

def padLeft (width : Nat) (s : String) : String := "".pushn ' ' (width - s.length) ++ s

def percentText (t : TaskInfo) : String := (t.progress.mul (.ofNat 100)).fixedText 1

def taskLines (t : TaskInfo) : List String :=
  ["Tarea " ++ t.id,
    "  tipo     : " ++ t.kind.name,
    "  estado   : " ++ t.status.name,
    "  progreso : " ++ percentText t ++ "%"] ++
  (t.message.map ("  mensaje  : " ++ ·)).toList ++
  ["  creada   : " ++ t.createdAt.display] ++
  (t.startedAt.map ("  iniciada : " ++ ·.display)).toList ++
  (t.endedAt.map ("  terminada: " ++ ·.display)).toList ++
  (t.error.map ("  error    : " ++ ·.text)).toList ++
  (t.resultRef.map fun r =>
    "  resultado: " ++ toString r.rows ++ " filas, " ++ toString r.bytes ++ " bytes").toList

def listLine (t : TaskInfo) : String :=
  t.id ++ "  " ++ padRight 10 t.status.name ++ " " ++ padRight 13 t.kind.name ++ " " ++
    padLeft 5 (percentText t) ++ "%"

def tableLines (t : Table) : List String :=
  ("columnas: " ++ ", ".intercalate t.columns) :: t.rows.map Json.text ++
    ["(" ++ toString t.length ++ " filas)"]

def sampleLine (s : MemorySample) : String :=
  let size : Double := (Binary.ofNat s.bytes).div (.ofNat (1024 * 1024))
  s.time.display ++ "  " ++ padLeft 10 (size.fixedText 1) ++ " MiB"

/-- Numbers are written with the fewest digits, and integers without a point. -/
def numberLayout : NumberLayout := ⟨none, false⟩

def check (r : Http.Response) : Except Failure Http.Response :=
  if Http.isSuccess r.status then .ok r
  else
    let reason := match (Json.parse r.body).toOption.bind (·.field? "error") with
      | some (.str s) => s
      | _ => "sin detalle"
    .error ⟨"el manager respondió " ++ Http.statusText r.status ++ ": " ++ reason, []⟩

def valueOf {α : Type} (read : Json.Decoder α) (r : Http.Response) : Except Failure α := do
  let r ← check r
  match Json.Decode.fromText read r.body with
  | .ok a => return a
  | .error e => throw ⟨"error decoding response body", [e.message r.body]⟩

open Json.Decode in
def acceptedDecode : Json.Decoder String :=
  record "struct SubmitResponse" false (.cons { name := "task_id", read := string } .nil)
    fun (id, ()) => id

/-- The lines that a command prints about an answer; nothing is written to files. -/
def answerLines : Command → Http.Response → Except Failure (List String)
  | .submit .., r => do return ["Tarea creada: " ++ (← valueOf acceptedDecode r)]
  | .status _, r => do return taskLines (← valueOf TaskInfo.decode r)
  | .list, r => do
    let ts ← valueOf (Json.Decode.list TaskInfo.decode) r
    return if ts.isEmpty then ["No hay tareas."] else ts.map listLine
  | .result .., r => do return tableLines (← valueOf Table.decode r)
  | .memory id, r => do
    let ss ← valueOf (Json.Decode.list MemorySample.decode) r
    return if ss.isEmpty then ["Sin muestras para " ++ id] else ss.map sampleLine
  | .cancel id, r => do
    let ack ← valueOf Json.Decode.json r
    let status := match ack.field? "status" with
      | some (.str s) => s
      | _ => "?"
    return ["Tarea " ++ id ++ ": " ++ status]
  | .delete id, r => do
    let _ ← check r
    return ["Tarea " ++ id ++ " borrada"]
  | .ack id, r => do
    let _ ← check r
    return ["Resultado de " ++ id ++ " liberado"]
  | .fuzzyJoin .., _ => .ok []

def save (files : FileSystem) (path : String) (t : Table) (before line : String) : Effect :=
  match files.writeJsonl path t with
  | (files, .ok _) => { files, output := before ++ printed [line] }
  | (files, .error e) => { files, output := before, failure? := some ⟨e.text, []⟩ }

def finish (files : FileSystem) (c : Command) (r : Http.Response) : Effect :=
  let told : Except Failure Effect := match c with
    | .result _ (some path) => do
      let t ← valueOf Table.decode r
      return save files path t "" (toString t.length ++ " filas guardadas en " ++ path)
    | c => do return { files, output := printed (← answerLines c r) }
  match told with
  | .ok e => e
  | .error f => { files, failure? := some f }

/-- The rows of a file, or the report that it cannot be read. -/
def readRows (files : FileSystem) (path : String) : Except Failure (List Row) :=
  (files.readCsv path).mapError fun e => ⟨"no se pudo leer " ++ path, e.text :: e.cause?.toList⟩

def joinFiles (files : FileSystem) (left right : String) (keys : Rows.FuzzyKeys)
    (output : String) : Effect :=
  let before := printed ["Ejecutando fuzzy join local entre CSVs:",
    "  left : " ++ left ++ " (" ++ keys.leftOn ++ ")",
    "  right: " ++ right ++ " (" ++ keys.rightOn ++ ")",
    "  umbral: " ++ keys.threshold.text numberLayout "NaN" "inf"]
  let table : Except Failure Table := do
    let l ← readRows files left
    let r ← readRows files right
    return Table.ofRows (Rows.fuzzyJoin keys l r)
  match table with
  | .error f => { files, output := before, failure? := some f }
  | .ok t => save files output t before
      ("Join completado: " ++ toString t.length ++ " filas en " ++ output)

/-- Carries out a command, given how the manager answers; the request it made is answered, too. -/
def run (ask : Http.Request → Except Failure Http.Response) (files : FileSystem) (c : Command) :
    Option Http.Request × Effect :=
  match request? files c with
  | .error f => (none, { files, failure? := some f })
  | .ok none =>
    (none, match c with
      | .fuzzyJoin left right leftOn rightOn threshold output =>
        joinFiles files left right ⟨leftOn, rightOn, threshold⟩ output
      | _ => { files })
  | .ok (some r) =>
    (some r, match ask r with
      | .ok answer => finish files c answer
      | .error f => { files, failure? := some f })

end TaskFlow.Client
