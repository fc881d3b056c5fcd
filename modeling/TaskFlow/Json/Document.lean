import TaskFlow.Json.Basic

namespace TaskFlow.Json

inductive Cause
  | endInValue
  | endInList
  | endInObject
  | endInString
  | expectedValue
  | expectedIdent
  | expectedColon
  | expectedListCommaOrEnd
  | expectedObjectCommaOrEnd
  | keyMustBeString
  | trailingComma
  | trailingCharacters
  | invalidNumber
  | numberOutOfRange
  | invalidEscape
  | controlCharacter
  | loneSurrogate
  | endInHexEscape
  | tooDeep
  deriving DecidableEq, Repr

def Cause.text : Cause → String
  | .endInValue => "EOF while parsing a value"
  | .endInList => "EOF while parsing a list"
  | .endInObject => "EOF while parsing an object"
  | .endInString => "EOF while parsing a string"
  | .expectedValue => "expected value"
  | .expectedIdent => "expected ident"
  | .expectedColon => "expected `:`"
  | .expectedListCommaOrEnd => "expected `,` or `]`"
  | .expectedObjectCommaOrEnd => "expected `,` or `\x7d`"
  | .keyMustBeString => "key must be a string"
  | .trailingComma => "trailing comma"
  | .trailingCharacters => "trailing characters"
  | .invalidNumber => "invalid number"
  | .numberOutOfRange => "number out of range"
  | .invalidEscape => "invalid escape"
  | .controlCharacter => "control character (\\u0000-\\u001F) found while parsing a string"
  | .loneSurrogate => "lone leading surrogate in hex escape"
  | .endInHexEscape => "unexpected end of hex escape"
  | .tooDeep => "recursion limit exceeded"

def Cause.isEnd : Cause → Bool
  | .endInValue | .endInList | .endInObject | .endInString => true
  | _ => false

/-- A cause, and how many bytes of the text were unread when it was found. -/
structure Fault where
  cause : Cause
  left : Nat
  deriving DecidableEq, Repr

/-- A place where the text cannot be continued: the fault for a reader of the value, and the one
for a reader that only passes over it. -/
structure Break where
  reading : Fault
  skipping : Fault
  deriving DecidableEq, Repr

def Break.both (f : Fault) : Break := ⟨f, f⟩

abbrev Key := Except Fault String

/-- A document in its spelling. One that is `cut` stops after its parts; `unreadable` can only be
passed over; `broken` is where the scan stopped. -/
inductive Doc
  | null
  | bool (b : Bool)
  | num (n : Number)
  | str (s : String)
  | arr (items : List Doc) (cut : Option Break)
  | obj (fields : List (Key × Doc)) (cut : Option Break)
  | unreadable (fault : Fault)
  | broken (b : Break)
  deriving Inhabited

namespace Doc

mutual

def ofJson : Json → Doc
  | .null => .null
  | .bool b => .bool b
  | .num n => .num n
  | .str s => .str s
  | .arr xs => .arr (ofItems xs) none
  | .obj fs => .obj (ofFields fs) none

def ofItems : List Json → List Doc
  | [] => []
  | x :: xs => ofJson x :: ofItems xs

def ofFields : List (String × Json) → List (Key × Doc)
  | [] => []
  | (k, v) :: fs => (.ok k, ofJson v) :: ofFields fs

end

def uncut (select : Break → Fault) : Option Break → Except Fault Unit
  | none => .ok ()
  | some b => .error (select b)

mutual

/-- The value of a document, or the first fault in it. Objects come out sorted by name, and of
fields with one name the last counts. -/
def read : Doc → Except Fault Json
  | .null => .ok .null
  | .bool b => .ok (.bool b)
  | .num n => .ok (.num n)
  | .str s => .ok (.str s)
  | .arr ds cut => do
    let xs ← readItems ds
    uncut Break.reading cut
    return .arr xs
  | .obj fs cut => do
    let fs ← readFields fs
    uncut Break.reading cut
    return Json.ofFields fs
  | .unreadable f => .error f
  | .broken b => .error b.reading

def readItems : List Doc → Except Fault (List Json)
  | [] => .ok []
  | d :: ds => do
    let x ← read d
    let xs ← readItems ds
    return x :: xs

def readFields : List (Key × Doc) → Except Fault (List (String × Json))
  | [] => .ok []
  | (k, d) :: fs => do
    let k ← k
    let v ← read d
    let fs ← readFields fs
    return (k, v) :: fs

end

mutual

def skip : Doc → Except Fault Unit
  | .arr ds cut => do
    skipItems ds
    uncut Break.skipping cut
  | .obj fs cut => do
    skipFields fs
    uncut Break.skipping cut
  | .broken b => .error b.skipping
  | _ => .ok ()

def skipItems : List Doc → Except Fault Unit
  | [] => .ok ()
  | d :: ds => do
    skip d
    skipItems ds

def skipFields : List (Key × Doc) → Except Fault Unit
  | [] => .ok ()
  | (_, d) :: fs => do
    skip d
    skipFields fs

end

def check (d : Doc) : Except Fault Unit := do
  let _ ← d.read

end Doc

end TaskFlow.Json
