import TaskFlow.Binary.Decimal
import TaskFlow.Json.Printer

namespace TaskFlow

namespace Json

def keyText? : Json → Option String
  | .str s => some s
  | .num n => some n.text
  | .bool b => some (if b then "true" else "false")
  | _ => none

def number? : Json → Option Double
  | .num n => some n.toDouble
  | .str s => Binary.parse? (Text.trim s)
  | _ => none

def keyIn? (name : String) (row : Row) : Option String := (row.field? name).bind keyText?

/-- A sum as a value: an integer where it is one below 2^63, a fraction, or null. -/
def ofSum (x : Double) : Json :=
  match x.truncate? with
  | some n => if x.isInteger && n.natAbs < UInt64.size / 2 then .num (.int n) else ofDouble x
  | none => .null

end Json

end TaskFlow
