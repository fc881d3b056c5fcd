namespace TaskFlow.Cli

structure Failure where
  message : String
  causes : List String := []
  deriving DecidableEq, Repr

namespace Failure

def indented (first rest : String) (s : String) : String :=
  first ++ ("\n" ++ rest).intercalate ((s.toList.splitOn '\n').map String.ofList)

def numbered (i : Nat) (cause : String) : String :=
  let n := toString i
  indented ("".pushn ' ' (5 - n.length) ++ n ++ ": ") "       " cause

def causeLines : List String → List String
  | [cause] => [indented "    " "    " cause]
  | causes => causes.mapIdx numbered

def text (f : Failure) : String :=
  let causes := if f.causes.isEmpty then ""
    else "\n\nCaused by:\n" ++ "\n".intercalate (causeLines f.causes)
  "Error: " ++ f.message ++ causes ++ "\n"

end Failure

end TaskFlow.Cli
