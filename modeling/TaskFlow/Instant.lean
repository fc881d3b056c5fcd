import TaskFlow.Text.Blank

namespace TaskFlow

/-- An instant: whole seconds since 1970 and nanoseconds. A leap second is told by nanoseconds from
10^9 on, in the last second of its minute. -/
structure Instant where
  seconds : Int
  nanos : Nat
  deriving DecidableEq, Repr, Inhabited

structure CivilDate where
  year : Int
  month : Nat
  day : Nat
  deriving DecidableEq, Repr

namespace CivilDate

def isLeap (year : Int) : Bool := year % 4 = 0 && (year % 100 ≠ 0 || year % 400 = 0)

def daysInMonth (year : Int) (month : Nat) : Nat :=
  if month = 2 then (if isLeap year then 29 else 28)
  else if month = 4 ∨ month = 6 ∨ month = 9 ∨ month = 11 then 30
  else 31

def yearInRange (year : Int) : Bool := -262143 ≤ year && year ≤ 262142

/-- Days since 1 January 1970. Years are counted from March, in eras of 400 years. -/
def toDays (d : CivilDate) : Int :=
  let y := if d.month ≤ 2 then d.year - 1 else d.year
  let era := y / 400
  let yearOfEra := y % 400
  let dayOfYear : Int := (153 * ((d.month + 9) % 12) + 2) / 5 + d.day - 1
  era * 146097 + yearOfEra * 365 + yearOfEra / 4 - yearOfEra / 100 + dayOfYear - 719468

/-- The calendar day that lies a number of days after 1 January 1970. -/
def ofDays (days : Int) : CivilDate :=
  let z := days + 719468
  let era := z / 146097
  let dayOfEra := z % 146097
  let yearOfEra := (dayOfEra - dayOfEra / 1460 + dayOfEra / 36524 - dayOfEra / 146096) / 365
  let dayOfYear := dayOfEra - (365 * yearOfEra + yearOfEra / 4 - yearOfEra / 100)
  let m := (5 * dayOfYear + 2) / 153
  let month := if m < 10 then m + 3 else m - 9
  let year := yearOfEra + era * 400
  ⟨if month ≤ 2 then year + 1 else year, month.toNat, (dayOfYear - (153 * m + 2) / 5 + 1).toNat⟩

end CivilDate

namespace Instant

def perSecond : Nat := 1000000000

def le (a b : Instant) : Bool := a.seconds < b.seconds || (a.seconds = b.seconds && a.nanos ≤ b.nanos)

/-- Nanoseconds from the second instant to the first. A leap second between the two times of day
counts. -/
def since (a b : Instant) : Int :=
  let x := a.seconds % 86400
  let y := b.seconds % 86400
  let leap : Int :=
    if x > y ∧ b.nanos ≥ perSecond then 1 else if x < y ∧ a.nanos ≥ perSecond then -1 else 0
  (a.seconds - b.seconds + leap) * perSecond + a.nanos - b.nanos

def plus (a : Instant) (nanos : Int) : Instant :=
  let n := a.nanos + nanos
  ⟨a.seconds + n / perSecond, (n % perSecond).toNat⟩

def padded (width n : Nat) : List Char :=
  let ds := Nat.toDigits 10 n
  List.replicate (width - ds.length) '0' ++ ds

/-- A year: four digits, or a sign and at least four digits outside the years 0 to 9999. -/
def yearText (year : Int) : List Char :=
  if 0 ≤ year ∧ year ≤ 9999 then padded 4 year.toNat
  else (if year < 0 then '-' else '+') :: padded 4 year.natAbs

/-- The fraction of a second in no, three, six or nine digits, as few as are exact. -/
def fractionText (nanos : Nat) : List Char :=
  if nanos = 0 then []
  else if nanos % 1000000 = 0 then '.' :: padded 3 (nanos / 1000000)
  else if nanos % 1000 = 0 then '.' :: padded 6 (nanos / 1000)
  else '.' :: padded 9 nanos

def calendarText (separator : Char) (t : Instant) : List Char :=
  let date := CivilDate.ofDays (t.seconds / 86400)
  let clock := (t.seconds % 86400).toNat
  let leap := t.nanos ≥ perSecond
  yearText date.year ++ '-' :: padded 2 date.month ++ '-' :: padded 2 date.day ++
    separator :: padded 2 (clock / 3600) ++ ':' :: padded 2 (clock / 60 % 60) ++
    ':' :: padded 2 (clock % 60 + if leap then 1 else 0) ++
    fractionText (if leap then t.nanos - perSecond else t.nanos)

def text (t : Instant) : String := .ofList (calendarText 'T' t ++ ['Z'])

def display (t : Instant) : String := .ofList (calendarText ' ' t ++ " UTC".toList)

inductive Flaw
  | outOfRange
  | invalid
  | tooShort
  | tooLong
  | impossible
  deriving DecidableEq, Repr

def Flaw.text : Flaw → String
  | .outOfRange => "input is out of range"
  | .invalid => "input contains invalid characters"
  | .tooShort => "premature end of input"
  | .tooLong => "trailing input"
  | .impossible => "no possible date and time matching input"

abbrev Reader (α : Type) := List Char → Except Flaw (α × List Char)

def skipBlank (cs : List Char) : List Char := cs.dropWhile Text.isBlank

def digit (c : Char) : Nat := c.toNat - '0'.toNat

/-- A number of one to `width` digits that fits in 63 bits. -/
def number (width : Nat) : Reader Nat := fun cs =>
  let ds := (cs.take width).takeWhile Char.isDigit
  let n := ds.foldl (fun n c => n * 10 + digit c) 0
  if cs.isEmpty then .error .tooShort
  else if ds.isEmpty then .error .invalid
  else if n ≥ UInt64.size / 2 then .error .outOfRange
  else .ok (n, cs.drop ds.length)

/-- A number of one or two digits between two bounds, after blanks. -/
def part (low high : Nat) : Reader Nat := fun cs => do
  let (n, cs) ← number 2 (skipBlank cs)
  if n < low ∨ n > high then throw .outOfRange
  return (n, cs)

def mark (c : Char) : Reader Unit := fun cs =>
  match skipBlank cs with
  | [] => .error .tooShort
  | d :: cs => if d = c then .ok ((), cs) else .error .invalid

/-- A year after blanks: four digits at most without a sign, any number of them with one. -/
def year : Reader Int := fun cs => do
  let (y, cs) ← match skipBlank cs with
    | '-' :: cs => do
      let (n, cs) ← number cs.length cs
      pure (-(n : Int), cs)
    | '+' :: cs => do
      let (n, cs) ← number cs.length cs
      pure ((n : Int), cs)
    | cs => do
      let (n, cs) ← number 4 cs
      pure ((n : Int), cs)
  if y < -2147483648 ∨ y > 2147483647 then throw .outOfRange
  return (y, cs)

/-- The fraction of a second, if there is a point: nine digits count and more are passed over. -/
def fraction : Reader Nat := fun cs =>
  match cs with
  | '.' :: cs => do
    let (n, rest) ← number 9 cs
    let count := cs.length - rest.length
    return (n * Nat.pow 10 (9 - count), rest.dropWhile Char.isDigit)
  | cs => .ok (0, cs)

def twoDigits (cs : List Char) : Except Flaw (Nat × Nat × List Char) :=
  match cs with
  | a :: b :: rest => if a.isDigit && b.isDigit then .ok (digit a, digit b, rest) else .error .invalid
  | [a] => .error (if a.utf8Size ≥ 2 then .invalid else .tooShort)
  | [] => .error .tooShort

/-- The seconds by which a local time is ahead: none, or hours and minutes with a sign. -/
def offset : Reader Int := fun cs =>
  match cs with
  | [] => .error .tooShort
  | s :: rest =>
    if s = 'Z' ∨ s = 'z' then .ok (0, rest)
    else if (String.ofList (cs.take 3)).toLower = "utc" then .ok (0, cs.drop 3)
    else if s = '+' ∨ s = '-' ∨ s = '−' then do
      let (h, k, rest) ← twoDigits rest
      let (m, n, rest) ← twoDigits (rest.dropWhile fun c => c = ':' || Text.isBlank c)
      if m > 5 then throw .outOfRange
      let ahead : Int := (h * 10 + k) * 3600 + (m * 10 + n) * 60
      return (if s = '+' then ahead else -ahead, rest)
    else .error .invalid

/-- The instant that a text tells. Blanks may stand around the marks, and the parts of the date and
the time may have one digit. -/
def parse (s : String) : Except Flaw Instant := do
  let (y, cs) ← year s.toList
  let (_, cs) ← mark '-' cs
  let (mo, cs) ← part 1 12 cs
  let (_, cs) ← mark '-' cs
  let (d, cs) ← part 1 31 cs
  let cs ← match cs with
    | [] => throw .tooShort
    | c :: cs => if c = 'T' ∨ c = 't' ∨ c = ' ' then pure cs else throw .invalid
  let (h, cs) ← part 0 23 cs
  let (_, cs) ← mark ':' cs
  let (mi, cs) ← part 0 59 cs
  let (_, cs) ← mark ':' cs
  let (sec, cs) ← part 0 60 cs
  let (nanos, cs) ← fraction cs
  let (ahead, cs) ← offset (skipBlank cs)
  if skipBlank cs ≠ [] then throw .tooLong
  if !CivilDate.yearInRange y ∨ d > CivilDate.daysInMonth y mo then throw .outOfRange
  if ahead.natAbs ≥ 86400 then throw .outOfRange
  let clock : Int := h * 3600 + mi * 60 + min sec 59
  let t : Instant := ⟨CivilDate.toDays ⟨y, mo, d⟩ * 86400 + clock - ahead,
    if sec = 60 then nanos + perSecond else nanos⟩
  if !CivilDate.yearInRange (CivilDate.ofDays (t.seconds / 86400)).year then throw .impossible
  return t

end Instant

end TaskFlow
