import TaskFlow.Job.Codec
import TaskFlow.Text.Blank

namespace TaskFlow

inductive Objection
  | noSteps
  | blankPath
  | blankGlob
  | noColumns
  | thresholdRange
  deriving DecidableEq, Repr

def Objection.text : Objection → String
  | .noSteps => "el script no tiene pasos"
  | .blankPath => "path de salida vacío"
  | .blankGlob => "input_glob vacío"
  | .noColumns => "left_on y right_on son obligatorios"
  | .thresholdRange => "threshold debe estar entre 0 y 1"

/-- Why a kind and a payload are no job. -/
inductive PayloadError
  | unknownKind (name : String)
  | shape (kind : JobKind) (reason : String)
  | invalid (kind : JobKind) (reason : String)
  deriving DecidableEq, Repr

def PayloadError.text : PayloadError → String
  | .unknownKind name => "tipo de job desconocido: " ++ name
  | .shape kind reason => "payload con forma inválida para " ++ kind.name ++ ": " ++ reason
  | .invalid kind reason => "payload inválido para " ++ kind.name ++ ": " ++ reason

def JobKind.parse (name : String) : Except PayloadError JobKind :=
  match JobKind.ofName? name with
  | some k => .ok k
  | none => .error (.unknownKind name)

namespace Job

def objection? : Job → Option Objection
  | .execute steps => if steps.isEmpty then some .noSteps else none
  | .writeResults steps path _ =>
    if steps.isEmpty then some .noSteps else if Text.blank path then some .blankPath else none
  | .createTable glob _ => if Text.blank glob then some .blankGlob else none
  | .fuzzyJoin _ _ leftOn rightOn threshold =>
    if leftOn.isEmpty || rightOn.isEmpty then some .noColumns
    else if Binary.zero.le threshold && threshold.le (.ofNat 1) then none
    else some .thresholdRange

def validate (j : Job) : Except PayloadError Unit :=
  match j.objection? with
  | none => .ok ()
  | some o => .error (.invalid j.kind o.text)

/-- The job of a kind that a payload describes, its checks left out. -/
def ofPayload (kind : JobKind) (payload : Json) : Except PayloadError Job :=
  (Json.Decode.fromJson (decodePayload kind) payload).mapError fun e => .shape kind e.reason

def parse (kind : JobKind) (payload : Json) : Except PayloadError Job := do
  let j ← ofPayload kind payload
  j.validate
  return j

end Job

end TaskFlow
