import TaskFlow.Text.Blank
import TaskFlow.Text.Utf8

namespace TaskFlow.Csv

open Text (Bytes)

/-- Where a record was looked for: its number and the bytes and line feeds before it. -/
structure Origin where
  record : Nat
  byte : Nat
  lines : Nat
  deriving DecidableEq, Repr

structure RawRecord where
  origin : Origin
  fields : List Bytes
  deriving DecidableEq, Repr

/-- How far the reader is; after a carriage return that ended a record a line feed still belongs to
it. -/
inductive Mode
  | between
  | afterReturn
  | fieldStart
  | plain
  | quoted
  | quoteSeen
  deriving DecidableEq, Repr

/-- The record being read: where it was looked for, how much was read, and its fields so far, the
last one with its bytes in reverse. -/
structure Draft where
  origin : Origin
  byte : Nat
  lines : Nat
  fields : List Bytes
  field : Bytes

namespace Draft

def advance (d : Draft) (b : UInt8) : Draft :=
  { d with byte := d.byte + 1, lines := if b = 10 then d.lines + 1 else d.lines }

def push (d : Draft) (b : UInt8) : Draft := { d with field := b :: d.field }

def endField (d : Draft) : Draft := { d with fields := d.fields ++ [d.field.reverse], field := [] }

def record (d : Draft) : RawRecord := ⟨d.origin, d.endField.fields⟩

def next (d : Draft) : Draft := ⟨⟨d.origin.record + 1, d.byte, d.lines⟩, d.byte, d.lines, [], []⟩

end Draft

def comma : UInt8 := 44
def quote : UInt8 := 34
def lineFeed : UInt8 := 10
def carriageReturn : UInt8 := 13

def endsRecord (b : UInt8) : Bool := b = lineFeed || b = carriageReturn

def modeAfterEnd (b : UInt8) : Mode := if b = carriageReturn then .afterReturn else .between

/-- One byte outside quotes: what becomes of the draft, or the end of the record. -/
inductive Step
  | go (m : Mode) (d : Draft)
  | done (m : Mode) (d : Draft)

/-- A byte in a field that is not quoted at this point. -/
def inField (d : Draft) (b : UInt8) : Step :=
  if b = comma then .go .fieldStart (d.endField.advance b)
  else if endsRecord b then .done (modeAfterEnd b) (d.advance b)
  else .go .plain ((d.push b).advance b)

def atStart (d : Draft) (b : UInt8) : Step :=
  if b = quote then .go .quoted (d.advance b) else inField d b

def step (m : Mode) (d : Draft) (b : UInt8) : Step :=
  match m with
  | .between => if endsRecord b then .go .between (d.advance b) else atStart d b
  | .afterReturn => if endsRecord b then .go .between (d.advance b) else atStart d b
  | .fieldStart => atStart d b
  | .plain => inField d b
  | .quoted => if b = quote then .go .quoteSeen (d.advance b) else .go .quoted ((d.push b).advance b)
  | .quoteSeen => if b = quote then .go .quoted ((d.push b).advance b) else inField d b

/-- The records of a byte sequence, given what was read before it. -/
def recordsFrom : Mode → Draft → Bytes → List RawRecord
  | m, d, [] => if m = .between ∨ m = .afterReturn then [] else [d.record]
  | m, d, b :: bs =>
    match step m d b with
    | .go m d => recordsFrom m d bs
    | .done m e => ⟨e.origin, e.endField.fields⟩ :: recordsFrom m e.next bs

def byteOrderMark : Bytes := [0xef, 0xbb, 0xbf]

/-- The records of a file; a byte order mark at its start is passed over. -/
def records (bs : Bytes) : List RawRecord :=
  let skip := if bs.take 3 = byteOrderMark then 3 else 0
  recordsFrom .between ⟨⟨0, 0, 0⟩, skip, 0, [], []⟩ (bs.drop skip)

structure EncodingError where
  origin : Origin
  field : Nat
  valid : Nat
  deriving DecidableEq, Repr

def EncodingError.reason (e : EncodingError) : String :=
  "invalid utf-8: invalid UTF-8 in field " ++ toString e.field ++ " near byte index " ++
    toString e.valid

def EncodingError.text (e : EncodingError) : String :=
  "CSV parse error: record " ++ toString e.origin.record ++ " (line " ++
    toString (e.origin.lines + 1) ++ ", field: " ++ toString e.field ++ ", byte: " ++
    toString e.origin.byte ++ "): " ++ e.reason

/-- The texts of the fields of a record from number `i` on. -/
def textsFrom (origin : Origin) : Nat → List Bytes → Except EncodingError (List String)
  | _, [] => .ok []
  | i, f :: fs =>
    match Text.fromUtf8? f with
    | none => .error ⟨origin, i, Text.validLength f⟩
    | some s => do
      let ss ← textsFrom origin (i + 1) fs
      return s :: ss

def RawRecord.texts (r : RawRecord) : Except EncodingError (List String) := textsFrom r.origin 0 r.fields

def isAsciiBlank (b : UInt8) : Bool := b = 9 || b = 10 || b = 12 || b = 13 || b = 32

def RawRecord.trimmed (r : RawRecord) : RawRecord := ⟨r.origin, r.fields.map (Text.strip isAsciiBlank)⟩

def dataTexts (r : RawRecord) : Except EncodingError (List String) := do
  let ss ← r.trimmed.texts
  return ss.map Text.trim

/-- A column name without white space around it and without byte order marks at its start. -/
def cleanHeader (s : String) : String :=
  .ofList ((Text.trim s).toList.dropWhile (· = '\ufeff'))

/-- The column names out of the first record, if there is one. -/
def headers : List RawRecord → Except EncodingError (List String)
  | [] => .ok []
  | r :: _ => do
    let ss ← r.texts
    return ss.map cleanHeader

end TaskFlow.Csv
