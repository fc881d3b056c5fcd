namespace TaskFlow.Http

def isToken (c : Char) : Bool := c.isAlphanum || "!#$%&'*+-.^_\x60|~".toList.contains c

def isQuotable (c : Char) : Bool := 31 < c.toNat && c.toNat ≠ 127

/-- Whether a text after a value is a list of parameters, each after a semicolon. -/
def parametersFollow : Nat → List Char → Bool
  | 0, _ => false
  | _, [] => true
  | fuel + 1, c :: cs =>
    if c ≠ ';' then false
    else
      let cs := cs.dropWhile (· = ' ')
      if cs.isEmpty then true
      else
        let name := cs.takeWhile isToken
        match cs.drop name.length with
        | '=' :: '"' :: cs =>
          let value := cs.takeWhile fun c => isQuotable c && c ≠ '"'
          match cs.drop value.length with
          | '"' :: rest =>
            !name.isEmpty && !value.isEmpty && parametersFollow fuel (rest.dropWhile (· = ' '))
          | _ => false
        | '=' :: cs =>
          let value := cs.takeWhile isToken
          let rest := cs.drop value.length
          !name.isEmpty && (rest.isEmpty || !value.isEmpty) && parametersFollow fuel rest
        | _ => false

structure MediaType where
  type : String
  subtype : String
  suffix : Option String
  deriving DecidableEq, Repr

namespace MediaType

/-- The subtype and the suffix in a name: what follows its last plus sign, unless that starts it. -/
def splitSuffix (cs : List Char) : String × Option String :=
  let tail := (cs.reverse.takeWhile (· ≠ '+')).reverse
  let head := cs.take (cs.length - tail.length - 1)
  if tail.length < cs.length ∧ head ≠ [] then (.ofList head, some (.ofList tail))
  else (.ofList cs, none)

def parse? (s : String) : Option MediaType :=
  let cs := s.toList.map Char.toLower
  let type := cs.takeWhile isToken
  match cs.drop type.length with
  | '/' :: cs =>
    let name := cs.takeWhile isToken
    if type.isEmpty || name.isEmpty || !parametersFollow (cs.length + 1) (cs.drop name.length) then
      none
    else
      let (subtype, suffix) := splitSuffix name
      some ⟨.ofList type, subtype, suffix⟩
  | _ => none

def isJson (m : MediaType) : Bool :=
  m.type = "application" && (m.subtype = "json" || m.suffix = some "json")

end MediaType

end TaskFlow.Http
