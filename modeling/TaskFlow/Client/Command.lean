import TaskFlow.Binary.Decimal
import TaskFlow.Cli.Arguments

namespace TaskFlow.Client

open Cli

inductive Command
  | submit (kind : String) (payload file : Option String)
  | status (id : String)
  | list
  | result (id : String) (output : Option String)
  | memory (id : String)
  | cancel (id : String)
  | delete (id : String)
  | ack (id : String)
  | fuzzyJoin (left right leftOn rightOn : String) (threshold : Double) (output : String)
  deriving DecidableEq, Repr

namespace Command

def defaultThreshold : Double := .ofRatio false 8 10

def defaultOutput : String := "fuzzy_join.jsonl"

def signatures : List (String × Signature) := [
  ("submit", ⟨1, ["payload", "file"]⟩),
  ("status", ⟨1, []⟩),
  ("list", ⟨0, []⟩),
  ("result", ⟨1, ["output"]⟩),
  ("memory", ⟨1, []⟩),
  ("cancel", ⟨1, []⟩),
  ("delete", ⟨1, []⟩),
  ("ack", ⟨1, []⟩),
  ("fuzzy-join", ⟨2, ["left-on", "right-on", "threshold", "output"]⟩)]

/-- Whether an option can have a value: the threshold is a number. -/
def validOption (name value : String) : Bool :=
  name ≠ "threshold" || (Binary.parse? value : Option Double).isSome

/-- The command of a name and its arguments, if nothing is missing and nothing excludes the
other. -/
def ofArguments? (name : String) (a : Arguments) : Option Command :=
  match name, a.values with
  | "submit", [kind] =>
    if (a.option? "payload").isSome && (a.option? "file").isSome then none
    else some (.submit kind (a.option? "payload") (a.option? "file"))
  | "status", [id] => some (.status id)
  | "list", [] => some .list
  | "result", [id] => some (.result id (a.option? "output"))
  | "memory", [id] => some (.memory id)
  | "cancel", [id] => some (.cancel id)
  | "delete", [id] => some (.delete id)
  | "ack", [id] => some (.ack id)
  | "fuzzy-join", [left, right] => do
    let leftOn ← a.option? "left-on"
    let rightOn ← a.option? "right-on"
    let threshold := (a.option? "threshold").bind Binary.parse?
    return .fuzzyJoin left right leftOn rightOn (threshold.getD defaultThreshold)
      ((a.option? "output").getD defaultOutput)
  | _, _ => none

/-- What a request for help is answered with: one known command can be named. -/
def help : List String → Refusal
  | [] => .help
  | [name] => if name = "help" || (signatures.lookup name).isSome then .help else .wrong
  | _ => .wrong

def parse : List String → Except Refusal Command
  | [] => .error .wrong
  | name :: args =>
    if name = "help" then .error (help args)
    else if name = "--help" || name.startsWith "-h" then .error .help
    else match signatures.lookup name with
      | none => .error .wrong
      | some s => do
        let a ← Arguments.parse s validOption {} args
        match ofArguments? name a with
        | some c => return c
        | none => throw .wrong

def inputs : Command → List String
  | .submit _ _ file => file.toList
  | .fuzzyJoin left right _ _ _ _ => [left, right]
  | _ => []

end Command

end TaskFlow.Client
