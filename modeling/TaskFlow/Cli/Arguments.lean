namespace TaskFlow.Cli

/-- What a command takes: how many values, and which options. -/
structure Signature where
  values : Nat
  options : List String := []

structure Arguments where
  values : List String := []
  options : List (String × String) := []
  deriving DecidableEq, Repr

/-- Why there are no arguments: help is asked for, or they are wrong. -/
inductive Refusal
  | help
  | wrong
  deriving DecidableEq, Repr

namespace Arguments

def option? (a : Arguments) (name : String) : Option String := a.options.lookup name

def addValue (s : Signature) (a : Arguments) (value : String) : Except Refusal Arguments :=
  if a.values.length < s.values then .ok { a with values := a.values ++ [value] }
  else .error .wrong

def addOption (valid : String → String → Bool) (a : Arguments) (name value : String) :
    Except Refusal Arguments :=
  if (a.option? name).isSome || !valid name value then .error .wrong
  else .ok { a with options := a.options ++ [(name, value)] }

def isOption (s : String) : Bool := s.startsWith "-" && s ≠ "-"

def parse (s : Signature) (valid : String → String → Bool) :
    Arguments → List String → Except Refusal Arguments
  | a, [] => .ok a
  | a, arg :: rest =>
    if arg = "--" then rest.foldlM (addValue s) a
    else if arg.startsWith "--" then
      let cs := arg.toList.drop 2
      let name := String.ofList (cs.takeWhile (· ≠ '='))
      let inline := cs.dropWhile (· ≠ '=')
      if name = "help" then .error (if inline.isEmpty then .help else .wrong)
      else if !s.options.contains name then .error .wrong
      else match inline with
        | _ :: value => do parse s valid (← a.addOption valid name (.ofList value)) rest
        | [] => match rest with
          | value :: rest =>
            if isOption value then .error .wrong
            else do parse s valid (← a.addOption valid name value) rest
          | [] => .error .wrong
    else if isOption arg then .error (if arg.startsWith "-h" then .help else .wrong)
    else do parse s valid (← a.addValue s arg) rest

end Arguments

end TaskFlow.Cli
