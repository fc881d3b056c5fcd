import TaskFlow.Job.Validation
import TaskFlow.Task.Info

namespace TaskFlow

inductive TaskError
  | invalidPayload (e : PayloadError)
  | resourceExhausted (limit : Nat)
  | notFound (id : String)
  | notReady (id : String) (status : Status)
  | workerCrashed (detail : String)
  | application (detail : String)
  | canceled (id : String)
  | shuttingDown
  | launch (reason : String)
  deriving DecidableEq, Repr

namespace TaskError

def text : TaskError → String
  | .invalidPayload e => e.text
  | .resourceExhausted limit =>
    "límite de concurrencia alcanzado (" ++ toString limit ++ " tareas activas)"
  | .notFound id => "tarea " ++ id ++ " no encontrada"
  | .notReady id status =>
    "la tarea " ++ id ++ " todavía no tiene resultado (estado " ++ status.name ++ ")"
  | .workerCrashed d => "el proceso worker terminó de forma anormal: " ++ d
  | .application d => "el job reportó un error: " ++ d
  | .canceled id => "la tarea " ++ id ++ " fue cancelada"
  | .shuttingDown => "el gestor se está apagando y no acepta tareas nuevas"
  | .launch reason => "no se pudo lanzar el worker: " ++ reason

def httpStatus : TaskError → Nat
  | .invalidPayload _ => 400
  | .notFound _ => 404
  | .notReady .. => 409
  | .canceled _ => 410
  | .application _ => 422
  | .resourceExhausted _ => 429
  | .launch _ => 500
  | .workerCrashed _ => 502
  | .shuttingDown => 503

def body (e : TaskError) : Json := .obj [("error", .str e.text)]

def ofFailure : TaskFailure → TaskError
  | .workerCrashed d => .workerCrashed d
  | .application d => .application d

end TaskError

end TaskFlow
