import TaskFlow.Job.Codec
import TaskFlow.Text.Lines

namespace TaskFlow

open Json.Decode

/-- A job with the task it belongs to and the file in which its rows are to be left. -/
structure Assignment where
  taskId : String
  artifactPath : String
  job : Job
  deriving Inhabited

inductive Message
  | started
  | progress (fraction : Single) (message : Option String)
  | completed (artifactPath : String) (rows bytes : Nat)
  | failed (error : String)
  deriving DecidableEq, Repr, Inhabited

namespace Assignment

def toJson (a : Assignment) : Json :=
  .obj [("task_id", .str a.taskId), ("artifact_path", .str a.artifactPath), ("job", a.job.toJson)]

def decode : Json.Decoder Assignment :=
  record "struct WorkerAssignment" false
    (.cons { name := "task_id", read := string }
      (.cons { name := "artifact_path", read := string }
        (.cons { name := "job", read := Job.decode } .nil)))
    fun (taskId, artifactPath, job, ()) => { taskId, artifactPath, job }

def parse (s : String) : Except Json.Failure Assignment := fromText decode s

end Assignment

namespace Message

def isTerminal : Message → Bool
  | .completed .. | .failed .. => true
  | .started | .progress .. => false

def toJson : Message → Json
  | .started => .obj [("type", .str "started")]
  | .progress fraction none => .obj [("type", .str "progress"), ("fraction", Json.ofSingle fraction)]
  | .progress fraction (some m) =>
    .obj [("type", .str "progress"), ("fraction", Json.ofSingle fraction), ("message", .str m)]
  | .completed path rows bytes =>
    .obj [("type", .str "completed"), ("artifact_path", .str path), ("rows", Json.ofNat rows),
      ("bytes", Json.ofNat bytes)]
  | .failed error => .obj [("type", .str "failed"), ("error", .str error)]

def decode : Json.Decoder Message :=
  tagged "internally tagged enum WorkerMessage" "type" [
    ("started", bare .started),
    ("progress",
      record "struct variant WorkerMessage::Progress" false
        (.cons { name := "fraction", read := single }
          (.cons { name := "message", read := optional string, absent := some none,
                   beyond := some none } .nil))
        fun (fraction, message, ()) => .progress fraction message),
    ("completed",
      record "struct variant WorkerMessage::Completed" false
        (.cons { name := "artifact_path", read := string }
          (.cons { name := "rows", read := natural "usize" }
            (.cons { name := "bytes", read := natural "u64" } .nil)))
        fun (path, rows, bytes, ()) => .completed path rows bytes),
    ("failed",
      record "struct variant WorkerMessage::Failed" false
        (.cons { name := "error", read := string } .nil)
        fun (error, ()) => .failed error)]

def line (m : Message) : String := m.toJson.text ++ "\n"

/-- The message in a line; white space around it does not count. -/
def ofLine (s : String) : Except Json.Failure Message := fromText decode (Text.trim s)

/-- The messages in a stream, up to its first line that is not text; other lines that hold no
message are passed over. -/
def ofStream (bs : Text.Bytes) : List Message :=
  (((Text.lines bs).map Text.lineText?).takeWhile Option.isSome).filterMap fun l =>
    l.bind fun s => (ofLine s).toOption

end Message

end TaskFlow
