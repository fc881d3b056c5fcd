import TaskFlow.Json.Decode

namespace TaskFlow

inductive Status
  | queued
  | running
  | completed
  | failed
  | canceled
  deriving DecidableEq, Repr, Inhabited

namespace Status

def all : List Status := [.queued, .running, .completed, .failed, .canceled]

def name : Status → String
  | .queued => "QUEUED"
  | .running => "RUNNING"
  | .completed => "COMPLETED"
  | .failed => "FAILED"
  | .canceled => "CANCELED"

def isTerminal : Status → Bool
  | .completed | .failed | .canceled => true
  | .queued | .running => false

/-- The steps of a life: a task runs before it completes or fails, and may be canceled until then. -/
def canBecome : Status → Status → Bool
  | .queued, .running => true
  | .running, .completed => true
  | .running, .failed => true
  | .queued, .canceled => true
  | .running, .canceled => true
  | _, _ => false

def toJson (s : Status) : Json := .str s.name

def decode : Json.Decoder Status := Json.Decode.names (all.map fun s => (s.name, s))

end Status

end TaskFlow
