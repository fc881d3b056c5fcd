import TaskFlow.Instant
import TaskFlow.Job.Codec
import TaskFlow.Task.Status

namespace TaskFlow

open Json.Decode

/-- Why a task failed: its process broke down, or the job itself reported an error. -/
inductive TaskFailure
  | workerCrashed (detail : String)
  | application (detail : String)
  deriving DecidableEq, Repr, Inhabited

def TaskFailure.text : TaskFailure → String
  | .workerCrashed d => "worker caído: " ++ d
  | .application d => "error de aplicación: " ++ d

/-- A stored result: whose it is, its rows and the bytes of its file. -/
structure ResultRef where
  key : String
  rows : Nat
  bytes : Nat
  deriving DecidableEq, Repr, Inhabited

/-- A reading of the memory that a worker uses. -/
structure MemorySample where
  time : Instant
  bytes : Nat
  deriving DecidableEq, Repr, Inhabited

structure TaskInfo where
  id : String
  kind : JobKind
  status : Status
  createdAt : Instant
  startedAt : Option Instant
  endedAt : Option Instant
  progress : Single
  message : Option String
  error : Option TaskFailure
  resultRef : Option ResultRef
  deriving DecidableEq, Repr, Inhabited

def TaskInfo.queued (id : String) (kind : JobKind) (now : Instant) : TaskInfo :=
  { id, kind, status := .queued, createdAt := now, startedAt := none, endedAt := none,
    progress := Binary.zero, message := none, error := none, resultRef := none }

def Json.ofOption {α : Type} (f : α → Json) : Option α → Json
  | some a => f a
  | none => .null

def Instant.toJson (t : Instant) : Json := .str t.text

def Instant.decode : Json.Decoder Instant := fun src d =>
  match d with
  | .str s =>
    match Instant.parse s with
    | .ok t => .ok t
    | .error e => fail src (.other e.text) .after
  | d => wrongType src "an RFC 3339 formatted date and time string" d

def TaskFailure.toJson : TaskFailure → Json
  | .workerCrashed d => .obj [("kind", .str "worker_crashed"), ("detail", .str d)]
  | .application d => .obj [("kind", .str "application"), ("detail", .str d)]

def TaskFailure.decode : Json.Decoder TaskFailure :=
  adjacent "adjacently tagged enum TaskFailure" "kind" "detail" [
    ("worker_crashed", fun src d => (string src d).map .workerCrashed),
    ("application", fun src d => (string src d).map .application)]

def ResultRef.toJson (r : ResultRef) : Json :=
  .obj [("key", .str r.key), ("rows", Json.ofNat r.rows), ("bytes", Json.ofNat r.bytes)]

def ResultRef.decode : Json.Decoder ResultRef :=
  record "struct ResultRef" false
    (.cons { name := "key", read := string }
      (.cons { name := "rows", read := natural "usize" }
        (.cons { name := "bytes", read := natural "u64" } .nil)))
    fun (key, rows, bytes, ()) => { key, rows, bytes }

def MemorySample.toJson (s : MemorySample) : Json :=
  .obj [("at", s.time.toJson), ("bytes", Json.ofNat s.bytes)]

def MemorySample.decode : Json.Decoder MemorySample :=
  record "struct MemorySample" false
    (.cons { name := "at", read := Instant.decode }
      (.cons { name := "bytes", read := natural "u64" } .nil))
    fun (time, bytes, ()) => { time, bytes }

def optionalField {α : Type} (name : String) (read : Json.Decoder α) : FieldSpec (Option α) :=
  { name, read := optional read, absent := some none }

def TaskInfo.toJson (t : TaskInfo) : Json :=
  .obj [("id", .str t.id), ("kind", t.kind.toJson), ("status", t.status.toJson),
    ("created_at", t.createdAt.toJson),
    ("started_at", Json.ofOption Instant.toJson t.startedAt),
    ("ended_at", Json.ofOption Instant.toJson t.endedAt),
    ("progress", Json.ofSingle t.progress), ("message", Json.ofOption .str t.message),
    ("error", Json.ofOption TaskFailure.toJson t.error),
    ("result_ref", Json.ofOption ResultRef.toJson t.resultRef)]

def TaskInfo.decode : Json.Decoder TaskInfo :=
  record "struct TaskInfo" false
    (.cons { name := "id", read := string }
      (.cons { name := "kind", read := JobKind.decode }
        (.cons { name := "status", read := Status.decode }
          (.cons { name := "created_at", read := Instant.decode }
            (.cons (optionalField "started_at" Instant.decode)
              (.cons (optionalField "ended_at" Instant.decode)
                (.cons { name := "progress", read := single }
                  (.cons (optionalField "message" string)
                    (.cons (optionalField "error" TaskFailure.decode)
                      (.cons (optionalField "result_ref" ResultRef.decode) .nil))))))))))
    fun (id, kind, status, createdAt, startedAt, endedAt, progress, message, error, resultRef, ()) =>
      { id, kind, status, createdAt, startedAt, endedAt, progress, message, error, resultRef }

end TaskFlow
