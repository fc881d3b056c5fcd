import TaskFlow.Http.Basic
import TaskFlow.Http.MediaType
import TaskFlow.Json.Decode
import TaskFlow.Manager.Operations

namespace TaskFlow

/-- What a path of the web interface stands for. Identifiers still have their escapes. -/
inductive Route
  | health
  | tasks
  | task (id : String)
  | result (id : String)
  | ack (id : String)
  | memory (id : String)
  | cancel (id : String)
  deriving DecidableEq, Repr

def Route.ofSegments? : List String → Option Route
  | ["", "health"] => some .health
  | ["", "api", "v1", "tasks"] => some .tasks
  | ["", "api", "v1", "tasks", id] => if id.isEmpty then none else some (.task id)
  | ["", "api", "v1", "tasks", id, "result"] => some (.result id)
  | ["", "api", "v1", "tasks", id, "ack"] => some (.ack id)
  | ["", "api", "v1", "tasks", id, "memory"] => some (.memory id)
  | ["", "api", "v1", "tasks", id, "cancel"] => some (.cancel id)
  | _ => none

/-- A submission: the name of a job kind, and a payload that may be left out. -/
structure Submission where
  kind : String
  payload : Json

open Json.Decode in
def Submission.decode : Json.Decoder Submission :=
  record "struct SubmitRequest" false
    (.cons { name := "kind", read := string }
      (.cons { name := "payload", read := json, absent := some .null, beyond := some .null } .nil))
    fun (kind, payload, ()) => ⟨kind, payload⟩

namespace Router

open Http

def refusal (e : TaskError) : Response := .ofJson e.httpStatus e.body

/-- The response to an answer, or to the error in its place. -/
def respond {α : Type} (f : α → Response) : Except TaskError α → Response
  | .ok a => f a
  | .error e => refusal e

def maxBody : Nat := 2 * 1024 * 1024

/-- The submission in a request, or the response to a request that holds none. -/
def submission (r : Request) : Except Response Submission :=
  if !((r.contentType.bind MediaType.parse?).any MediaType.isJson) then
    .error ⟨415, "Expected request with \x60Content-Type: application/json\x60"⟩
  else if maxBody < (Text.utf8 r.body).length then .error ⟨413, "length limit exceeded"⟩
  else
    match Json.Decode.fromStart Submission.decode r.body with
    | .ok s => .ok s
    | .error e =>
      if e.category = .shape then
        .error ⟨422, "Failed to deserialize the JSON body into the target type: " ++
          e.message r.body⟩
      else .error ⟨400, "Failed to parse the request body as JSON: " ++ e.message r.body⟩

def submit (fresh : String) (launchError? : Option FileError) (s : Submission) :
    Manager.Op Response := do
  match JobKind.parse s.kind with
  | .error e => return refusal (.invalidPayload e)
  | .ok kind =>
    let answer ← Manager.submit fresh kind s.payload launchError?
    return respond (fun id => .ofJson 202 (.obj [("task_id", .str id)])) answer

/-- Answers a request about the task that a part of the path names. -/
def about (id : String) (f : String → Manager.Op Response) : Manager.Op Response :=
  match Text.fromUtf8? (unescape id.toList) with
  | some id => f id
  | none => return ⟨400, "Invalid URL: Invalid UTF-8 in \x60id\x60"⟩

def read? : Route → Option (Manager.Op Response)
  | .health => some (return ⟨200, "ok"⟩)
  | .tasks => some do
    return .ofJson 200 (.arr ((← Manager.list).map TaskInfo.toJson))
  | .task id => some <| about id fun id => do
    return respond (fun t => .ofJson 200 t.toJson) (← Manager.status id)
  | .result id => some <| about id fun id => do
    return respond (fun t => .ofJson 200 t.toJson) (← Manager.result id)
  | .memory id => some <| about id fun id => do
    return .ofJson 200 (.arr ((← Manager.memory id).map MemorySample.toJson))
  | .ack _ | .cancel _ => none

def write? (fresh : String) (launchError? : Option FileError) (r : Request) :
    Route → Option (Manager.Op Response)
  | .tasks => some <|
    match submission r with
    | .ok s => submit fresh launchError? s
    | .error e => return e
  | .ack id => some <| about id fun id => do
    return respond (fun () => ⟨204, ""⟩) (← Manager.acknowledge id)
  | .cancel id => some <| about id fun id => do
    return respond (fun a => .ofJson 200 a.toJson) (← Manager.cancel id)
  | .health | .task _ | .result _ | .memory _ => none

def delete? : Route → Option (Manager.Op Response)
  | .task id => some <| about id fun id => do
    return respond (fun () => ⟨204, ""⟩) (← Manager.delete id)
  | _ => none

def headOnly (op : Manager.Op Response) : Manager.Op Response := do
  let answer ← op
  return ⟨answer.status, ""⟩

/-- Answers a request. Unknown paths and methods get no body, and neither do requests for the head
only. -/
def handle (r : Request) (fresh : String) (launchError? : Option FileError) :
    Manager.Op Response :=
  match Route.ofSegments? r.segments with
  | none => return ⟨404, ""⟩
  | some route =>
    let op? := match r.method with
      | "GET" => read? route
      | "HEAD" => (read? route).map headOnly
      | "POST" => write? fresh launchError? r route
      | "DELETE" => delete? route
      | _ => none
    op?.getD (return ⟨405, ""⟩)

end Router

end TaskFlow
