import TaskFlow.Manager.Registry

namespace TaskFlow

inductive Reading
  | size (bytes : Nat)
  | nothing
  | breakdown
  deriving DecidableEq, Repr

/-- A reading at an instant, and what others did to the registry before its result is noted. -/
structure Tick where
  now : Instant
  reading : Reading
  change : Registry → Registry := id

namespace Monitor

/-- The registry after a number of readings, how many there were, and whether the monitor ended by
itself. -/
structure Outcome where
  registry : Registry
  calls : Nat
  stopped : Bool

def Outcome.after (o : Outcome) : Outcome := { o with calls := o.calls + 1 }

def watch (id : String) : Registry → List Tick → Outcome
  | r, [] => ⟨r, 0, false⟩
  | r, t :: ts =>
    let r := t.change r
    match t.reading with
    | .breakdown => ⟨r, 1, true⟩
    | .nothing => (watch id r ts).after
    | .size bytes =>
      match r.recordMemory id ⟨t.now, bytes⟩ with
      | (r, true) => (watch id r ts).after
      | (r, false) => ⟨r, 1, true⟩

end Monitor

end TaskFlow
