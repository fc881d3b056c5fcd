import TaskFlow.Job.Basic
import TaskFlow.Json.Decode

namespace TaskFlow

open Json.Decode

def Json.ofTexts (ss : List String) : Json := .arr (ss.map .str)

def JobKind.toJson (k : JobKind) : Json := .str k.name

def JobKind.decode : Json.Decoder JobKind := names (JobKind.all.map fun k => (k.name, k))

namespace Step

def toJson : Step → Json
  | .rows rs => .obj [("op", .str "rows"), ("rows", .arr rs)]
  | .readCsv path => .obj [("op", .str "read_csv"), ("path", .str path)]
  | .readJsonl path => .obj [("op", .str "read_jsonl"), ("path", .str path)]
  | .filter field equals =>
    .obj [("op", .str "filter"), ("field", .str field), ("equals", equals)]
  | .select fields => .obj [("op", .str "select"), ("fields", Json.ofTexts fields)]
  | .reduceByKey key value =>
    .obj [("op", .str "reduce_by_key"), ("key", .str key), ("value", .str value)]
  | .join path key => .obj [("op", .str "join"), ("path", .str path), ("key", .str key)]
  | .limit n => .obj [("op", .str "limit"), ("n", Json.ofNat n)]
  | .sleep ms => .obj [("op", .str "sleep"), ("ms", Json.ofNat ms)]
  | .fail message => .obj [("op", .str "fail"), ("message", .str message)]
  | .abort => .obj [("op", .str "abort")]

def one {α : Type} (title name : String) (read : Json.Decoder α) (make : α → Step) :
    Json.Decoder Step :=
  record ("struct variant Step::" ++ title) false (.cons { name, read } .nil)
    fun (a, ()) => make a

def two {α β : Type} (title name₁ : String) (read₁ : Json.Decoder α) (name₂ : String)
    (read₂ : Json.Decoder β) (make : α → β → Step) : Json.Decoder Step :=
  record ("struct variant Step::" ++ title) false
    (.cons { name := name₁, read := read₁ } (.cons { name := name₂, read := read₂ } .nil))
    fun (a, b, ()) => make a b

def decode : Json.Decoder Step :=
  tagged "internally tagged enum Step" "op" [
    ("rows", one "Rows" "rows" (list json) .rows),
    ("read_csv", one "ReadCsv" "path" string .readCsv),
    ("read_jsonl", one "ReadJsonl" "path" string .readJsonl),
    ("filter", two "Filter" "field" string "equals" json .filter),
    ("select", one "Select" "fields" (list string) .select),
    ("reduce_by_key", two "ReduceByKey" "key" string "value" string .reduceByKey),
    ("join", two "Join" "path" string "key" string .join),
    ("limit", one "Limit" "n" (natural "usize") .limit),
    ("sleep", one "Sleep" "ms" (natural "u64") .sleep),
    ("fail", one "Fail" "message" string .fail),
    ("abort", bare .abort)]

end Step

def FileFormat.decode : Json.Decoder FileFormat :=
  names ([.csv, .jsonl].map fun (f : FileFormat) => (f.name, f))

def InputFormat.decode : Json.Decoder InputFormat :=
  names ([.csv, .jsonl, .infer].map fun (f : InputFormat) => (f.name, f))

namespace DataSource

def toJson : DataSource → Json
  | .rows rs => .obj [("rows", .arr rs)]
  | .csv path => .obj [("csv", .str path)]
  | .jsonl path => .obj [("jsonl", .str path)]

def decode : Json.Decoder DataSource :=
  choice [
    ("rows", .holding fun src d => (list json src d).map .rows),
    ("csv", .holding fun src d => (string src d).map .csv),
    ("jsonl", .holding fun src d => (string src d).map .jsonl)]

end DataSource

namespace Job

def payload : Job → Json
  | .execute steps => .obj [("steps", .arr (steps.map Step.toJson))]
  | .writeResults steps path format =>
    .obj [("steps", .arr (steps.map Step.toJson)), ("path", .str path),
      ("format", .str format.name)]
  | .createTable glob format => .obj [("input_glob", .str glob), ("format", .str format.name)]
  | .fuzzyJoin left right leftOn rightOn threshold =>
    .obj [("left", left.toJson), ("right", right.toJson), ("left_on", .str leftOn),
      ("right_on", .str rightOn), ("threshold", .ofDouble threshold)]

def toJson (j : Job) : Json := .obj [("kind", j.kind.toJson), ("payload", j.payload)]

def defaultThreshold : Double := Binary.ofRatio false 8 10

def decodeExecute : Json.Decoder Job :=
  record "struct ExecutePayload" true (.cons { name := "steps", read := list Step.decode } .nil)
    fun (steps, ()) => .execute steps

def decodeWriteResults : Json.Decoder Job :=
  record "struct WriteResultsPayload" true
    (.cons { name := "steps", read := list Step.decode }
      (.cons { name := "path", read := string }
        (.cons { name := "format", read := FileFormat.decode } .nil)))
    fun (steps, path, format, ()) => .writeResults steps path format

def decodeCreateTable : Json.Decoder Job :=
  record "struct CreateTablePayload" true
    (.cons { name := "input_glob", read := string }
      (.cons { name := "format", read := InputFormat.decode, absent := some .infer,
               beyond := some .infer } .nil))
    fun (glob, format, ()) => .createTable glob format

def decodeFuzzyJoin : Json.Decoder Job :=
  record "struct FuzzyJoinPayload" true
    (.cons { name := "left", read := DataSource.decode }
      (.cons { name := "right", read := DataSource.decode }
        (.cons { name := "left_on", read := string }
          (.cons { name := "right_on", read := string }
            (.cons { name := "threshold", read := double, absent := some defaultThreshold,
                     beyond := some defaultThreshold } .nil)))))
    fun (left, right, leftOn, rightOn, threshold, ()) =>
      .fuzzyJoin left right leftOn rightOn threshold

def decodePayload : JobKind → Json.Decoder Job
  | .execute => decodeExecute
  | .writeResults => decodeWriteResults
  | .createTable => decodeCreateTable
  | .fuzzyJoin => decodeFuzzyJoin

def decode : Json.Decoder Job :=
  adjacent "adjacently tagged enum JobPayload" "kind" "payload"
    (JobKind.all.map fun k => (k.name, decodePayload k))

end Job

end TaskFlow
