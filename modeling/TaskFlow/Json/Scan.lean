import TaskFlow.Json.Numeral

namespace TaskFlow.Json

open Text (utf8Length)

def isSpace (c : Char) : Bool := c = ' ' || c = '\n' || c = '\t' || c = '\r'

def skipSpace (cs : List Char) : List Char := cs.dropWhile isSpace

def scanWord : List Char → List Char → Except Fault (List Char)
  | [], cs => .ok cs
  | _ :: _, [] => .error ⟨.endInValue, 0⟩
  | w :: ws, c :: cs =>
    if c = w then scanWord ws cs else .error (faultAt .expectedIdent (c :: cs))

def hexValue? (c : Char) : Option Nat :=
  if c.isDigit then some (c.toNat - '0'.toNat)
  else if 'a' ≤ c ∧ c ≤ 'f' then some (c.toNat - 'a'.toNat + 10)
  else if 'A' ≤ c ∧ c ≤ 'F' then some (c.toNat - 'A'.toNat + 10)
  else none

/-- The fault where four bytes of a text are no hexadecimal digits. -/
def badHex (cs : List Char) : Fault :=
  if utf8Length cs < 4 then ⟨.endInString, 0⟩ else ⟨.invalidEscape, utf8Length cs - 4⟩

def scanHex (cs : List Char) : Except Fault (Nat × List Char) :=
  match cs with
  | a :: b :: c :: d :: rest =>
    match hexValue? a, hexValue? b, hexValue? c, hexValue? d with
    | some a, some b, some c, some d => .ok (((a * 16 + b) * 16 + c) * 16 + d, rest)
    | _, _, _, _ => .error (badHex cs)
  | _ => .error (badHex cs)

def shortEscape? (c : Char) : Option Char :=
  if c = '"' ∨ c = '\\' ∨ c = '/' then some c
  else if c = 'b' then some '\x08'
  else if c = 'f' then some '\x0c'
  else if c = 'n' then some '\n'
  else if c = 'r' then some '\r'
  else if c = 't' then some '\t'
  else none

def isHighSurrogate (n : Nat) : Bool := 0xd800 ≤ n && n ≤ 0xdbff

def isLowSurrogate (n : Nat) : Bool := 0xdc00 ≤ n && n ≤ 0xdfff

/-- The character of a hexadecimal escape, which may take a second escape for its lower half. -/
def scanUnicode (cs : List Char) : Except Fault (Char × List Char) := do
  let (n, cs) ← scanHex cs
  if isLowSurrogate n then throw ⟨.loneSurrogate, utf8Length cs⟩
  else if isHighSurrogate n then
    match cs with
    | [] | ['\\'] => throw ⟨.endInString, 0⟩
    | '\\' :: 'u' :: rest =>
      let (m, rest) ← scanHex rest
      if isLowSurrogate m then
        return (.ofNat (0x10000 + (n - 0xd800) * 0x400 + (m - 0xdc00)), rest)
      else throw ⟨.loneSurrogate, utf8Length rest⟩
    | '\\' :: rest => throw (faultAt .endInHexEscape rest)
    | rest => throw (faultAt .endInHexEscape rest)
  else return (.ofNat n, cs)

/-- The characters of a quoted text up to its closing quote, and what follows. -/
def scanQuoted : Nat → List Char → Except Fault (List Char × List Char)
  | 0, _ => .error ⟨.endInString, 0⟩
  | _ + 1, [] => .error ⟨.endInString, 0⟩
  | fuel + 1, c :: cs =>
    if c = '"' then .ok ([], cs)
    else if c = '\\' then
      match cs with
      | [] => .error ⟨.endInString, 0⟩
      | 'u' :: rest => do
        let (x, rest) ← scanUnicode rest
        let (xs, rest) ← scanQuoted fuel rest
        return (x :: xs, rest)
      | e :: rest =>
        match shortEscape? e with
        | some x => do
          let (xs, rest) ← scanQuoted fuel rest
          return (x :: xs, rest)
        | none => .error (faultAt .invalidEscape cs)
    else if c.toNat < 0x20 then .error ⟨.controlCharacter, utf8Length cs⟩
    else do
      let (xs, rest) ← scanQuoted fuel cs
      return (c :: xs, rest)

def skipQuoted : Nat → List Char → Except Fault (List Char)
  | 0, _ => .error ⟨.endInString, 0⟩
  | _ + 1, [] => .error ⟨.endInString, 0⟩
  | fuel + 1, c :: cs =>
    if c = '"' then .ok cs
    else if c = '\\' then
      match cs with
      | [] => .error ⟨.endInString, 0⟩
      | 'u' :: rest => do
        let (_, rest) ← scanHex rest
        skipQuoted fuel rest
      | e :: rest =>
        if (shortEscape? e).isSome then skipQuoted fuel rest
        else .error (faultAt .invalidEscape cs)
    else if c.toNat < 0x20 then .error ⟨.controlCharacter, utf8Length cs⟩
    else skipQuoted fuel cs

/-- A quoted text after its opening quote: its characters or the fault in them, and what follows
unless the text breaks off. -/
def scanString (fuel : Nat) (cs : List Char) : Except Break (Key × List Char) :=
  match scanQuoted fuel cs with
  | .ok (xs, rest) => .ok (.ok (.ofList xs), rest)
  | .error f =>
    match skipQuoted fuel cs with
    | .ok rest => .ok (.error f, rest)
    | .error g => .error ⟨f, g⟩

def maxDepth : Nat := 127

def overDeep (f : Fault) (d : Doc) : Doc :=
  match d.skip with
  | .ok () => .unreadable f
  | .error g => .broken ⟨f, g⟩

def scanScalar (fuel : Nat) (c : Char) (cs : List Char) : Doc × Option (List Char) :=
  let word (w : String) (d : Doc) : Doc × Option (List Char) :=
    match scanWord w.toList cs with
    | .ok rest => (d, some rest)
    | .error f => (.broken (.both f), none)
  if c = 'n' then word "ull" .null
  else if c = 't' then word "rue" (.bool true)
  else if c = 'f' then word "alse" (.bool false)
  else if c = '"' then
    match scanString fuel cs with
    | .ok (.ok s, rest) => (.str s, some rest)
    | .ok (.error f, rest) => (.unreadable f, some rest)
    | .error b => (.broken b, none)
  else if c = '-' ∨ c.isDigit then
    match Numeral.scan (c :: cs) with
    | .ok (n, rest) => match n.value? with
      | some x => (.num x, some rest)
      | none => (.unreadable (n.outOfRange rest), some rest)
    | .error b => (.broken b, none)
  else (.broken (.both (faultAt .expectedValue (c :: cs))), none)

/-- The break at a place where neither a comma nor the end of a container stands. -/
def noSeparator (atEnd other : Cause) (cs : List Char) : Break :=
  .both (if cs.isEmpty then ⟨atEnd, 0⟩ else faultAt other cs)

mutual

/-- A value and what follows it, unless the text breaks off; `depth` more containers may open. -/
def scanValue : Nat → Nat → List Char → Doc × Option (List Char)
  | 0, _, _ => (.broken (.both ⟨.endInValue, 0⟩), none)
  | fuel + 1, depth, cs =>
    match skipSpace cs with
    | [] => (.broken (.both ⟨.endInValue, 0⟩), none)
    | c :: cs =>
      if c = '[' then
        let (items, cut, rest) := match skipSpace cs with
          | [] => ([], some (.both ⟨.endInList, 0⟩), none)
          | ']' :: rest => ([], none, some rest)
          | rest => scanItems fuel (depth - 1) rest
        let d := Doc.arr items cut
        (if depth = 0 then overDeep (faultAt .tooDeep (c :: cs)) d else d, rest)
      else if c = '{' then
        let (fields, cut, rest) := match skipSpace cs with
          | [] => ([], some (.both ⟨.endInObject, 0⟩), none)
          | '}' :: rest => ([], none, some rest)
          | rest => scanFields fuel (depth - 1) rest
        let d := Doc.obj fields cut
        (if depth = 0 then overDeep (faultAt .tooDeep (c :: cs)) d else d, rest)
      else scanScalar fuel c cs

def scanItems : Nat → Nat → List Char → List Doc × Option Break × Option (List Char)
  | 0, _, _ => ([], some (.both ⟨.endInList, 0⟩), none)
  | fuel + 1, depth, cs =>
    match scanValue fuel depth cs with
    | (d, none) => ([d], none, none)
    | (d, some rest) =>
      match skipSpace rest with
      | ']' :: rest => ([d], none, some rest)
      | ',' :: rest =>
        match skipSpace rest with
        | [] => ([d], some (.both ⟨.endInValue, 0⟩), none)
        | ']' :: rest =>
          let rest := ']' :: rest
          ([d], some ⟨faultAt .trailingComma rest, faultAt .expectedValue rest⟩, none)
        | rest =>
          let (ds, cut, rest) := scanItems fuel depth rest
          (d :: ds, cut, rest)
      | rest => ([d], some (noSeparator .endInList .expectedListCommaOrEnd rest), none)

def scanFields : Nat → Nat → List Char → List (Key × Doc) × Option Break × Option (List Char)
  | 0, _, _ => ([], some (.both ⟨.endInObject, 0⟩), none)
  | fuel + 1, depth, cs =>
    match cs with
    | '"' :: cs =>
      match scanString fuel cs with
      | .error b => ([], some b, none)
      | .ok (k, rest) =>
        match skipSpace rest with
        | ':' :: rest =>
          match scanValue fuel depth rest with
          | (d, none) => ([(k, d)], none, none)
          | (d, some rest) =>
            match skipSpace rest with
            | '}' :: rest => ([(k, d)], none, some rest)
            | ',' :: rest =>
              match skipSpace rest with
              | [] => ([(k, d)], some ⟨⟨.endInValue, 0⟩, ⟨.endInObject, 0⟩⟩, none)
              | '}' :: rest =>
                let rest := '}' :: rest
                ([(k, d)], some ⟨faultAt .trailingComma rest, faultAt .keyMustBeString rest⟩, none)
              | rest =>
                let (fs, cut, rest) := scanFields fuel depth rest
                ((k, d) :: fs, cut, rest)
            | rest => ([(k, d)], some (noSeparator .endInObject .expectedObjectCommaOrEnd rest), none)
        | rest => ([(k, .broken (noSeparator .endInObject .expectedColon rest))], none, none)
    | rest => ([], some (.both (faultAt .keyMustBeString rest)), none)

end

/-- Enough fuel to scan a text: two steps for each character and two more. -/
def scanFuel (cs : List Char) : Nat := 2 * cs.length + 2

def scan (cs : List Char) : Doc × Option (List Char) := scanValue (scanFuel cs) maxDepth cs

def checkRest (rest : Option (List Char)) : Except Fault Unit :=
  match rest.map skipSpace with
  | none | some [] => .ok ()
  | some rest => .error (faultAt .trailingCharacters rest)

def parse (s : String) : Except Fault Json := do
  let (d, rest) := scan s.toList
  let j ← d.read
  checkRest rest
  return j

/-- A place in a text as people count it: lines from one, and the bytes since the line began. -/
structure Position where
  line : Nat
  column : Nat

def positionOf (s : String) (left : Nat) : Position :=
  let seen := (Text.utf8 s).take ((Text.utf8 s).length - left)
  ⟨(seen.filter (· == 10)).length + 1, (seen.reverse.takeWhile (· != 10)).length⟩

/-- The addition to a message that tells where in the text the fault is. -/
def Position.text (p : Position) : String :=
  " at line " ++ toString p.line ++ " column " ++ toString p.column

def Fault.message (f : Fault) (s : String) : String := f.cause.text ++ (positionOf s f.left).text

end TaskFlow.Json
