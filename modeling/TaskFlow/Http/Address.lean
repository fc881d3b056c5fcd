import TaskFlow.Store

namespace TaskFlow.Http

inductive AddressError
  | noPort
  | invalidPort
  | unknownHost
  | notLocal
  deriving DecidableEq, Repr

def AddressError.text : AddressError → String
  | .noPort => "invalid socket address"
  | .invalidPort => "invalid port value"
  | .unknownHost => "failed to lookup address information: Temporary failure in name resolution"
  | .notLocal => "Cannot assign requested address (os error 99)"

/-- An address: the four numbers of a host, and a port. -/
structure Address where
  host : List Nat
  port : Nat
  deriving DecidableEq, Repr

def number? (limit : Nat) (cs : List Char) : Option Nat :=
  if cs.isEmpty || !cs.all Char.isDigit then none
  else
    let n := cs.foldl (fun n c => n * 10 + (c.toNat - '0'.toNat)) 0
    if n ≤ limit then some n else none

def port? (cs : List Char) : Option Nat :=
  number? 65535 (match cs with
    | '+' :: cs => cs
    | cs => cs)

def hostPart? (cs : List Char) : Option Nat :=
  if 1 < cs.length && cs.head? == some '0' then none else number? 255 cs

/-- The four numbers of a host; one name always stands for the own computer. -/
def host? (cs : List Char) : Option (List Nat) :=
  if cs = "localhost".toList then some [127, 0, 0, 1]
  else
    let parts := cs.splitOn '.'
    if parts.length = 4 then parts.mapM hostPart? else none

def Address.parse (s : String) : Except AddressError Address :=
  let cs := s.toList
  let port := (cs.reverse.takeWhile (· ≠ ':')).reverse
  if port.length = cs.length then .error .noPort
  else match port? port with
    | none => .error .invalidPort
    | some port =>
      match host? (cs.reverse.dropWhile (· ≠ ':')).tail.reverse with
      | some host => .ok ⟨host, port⟩
      | none => .error .unknownHost

def isLocal (host : List Nat) : Bool := host.head? == some 127 || host.all (· = 0)

def Address.listen (s : String) : Except AddressError Address := do
  let a ← Address.parse s
  if isLocal a.host then return a else throw .notLocal

end TaskFlow.Http
