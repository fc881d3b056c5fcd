import TaskFlow.Binary.Decimal
import TaskFlow.Json.Document
import TaskFlow.Text.Utf8

namespace TaskFlow.Json

open Text (utf8Length)

def faultAt (cause : Cause) (rest : List Char) : Fault := ⟨cause, utf8Length rest - 1⟩

/-- A number as it is spelled: its sign, the digits before and after the point, and the exponent. -/
structure Numeral where
  negative : Bool
  whole : List Char
  fraction : Option (List Char)
  exponent : Option (Bool × List Char)

namespace Numeral

/-- A malformed number: a reader that passes over it never complains about the end of the text. -/
def malformed (rest : List Char) : Break :=
  let f := faultAt .invalidNumber rest
  ⟨if rest.isEmpty then ⟨.endInValue, 0⟩ else f, f⟩

/-- The digits before the point: a zero alone, or digits that start with another one. -/
def scanWhole : List Char → Except Break (List Char × List Char)
  | '0' :: rest =>
    match rest with
    | c :: _ => if c.isDigit then .error (.both (faultAt .invalidNumber rest)) else .ok (['0'], rest)
    | [] => .ok (['0'], [])
  | cs =>
    let ds := cs.takeWhile Char.isDigit
    if ds.isEmpty then .error (malformed cs) else .ok (ds, cs.dropWhile Char.isDigit)

def scanFraction : List Char → Except Break (Option (List Char) × List Char)
  | '.' :: cs =>
    let ds := cs.takeWhile Char.isDigit
    if ds.isEmpty then .error (malformed cs) else .ok (some ds, cs.dropWhile Char.isDigit)
  | cs => .ok (none, cs)

def exponentSign : List Char → Bool × List Char
  | '-' :: cs => (true, cs)
  | '+' :: cs => (false, cs)
  | cs => (false, cs)

def scanExponent : List Char → Except Break (Option (Bool × List Char) × List Char)
  | [] => .ok (none, [])
  | c :: cs =>
    if c = 'e' ∨ c = 'E' then
      let (s, cs) := exponentSign cs
      let ds := cs.takeWhile Char.isDigit
      if ds.isEmpty then .error (malformed cs)
      else .ok (some (s, ds), cs.dropWhile Char.isDigit)
    else .ok (none, c :: cs)

def scan (cs : List Char) : Except Break (Numeral × List Char) := do
  let (negative, cs) := match cs with
    | '-' :: cs => (true, cs)
    | cs => (false, cs)
  let (whole, cs) ← scanWhole cs
  let (fraction, cs) ← scanFraction cs
  let (exponent, cs) ← scanExponent cs
  return (⟨negative, whole, fraction, exponent⟩, cs)

def greatest : Nat := UInt64.size - 1

/-- Appends digits to a number while it fits in 64 bits; how many digits were left over. -/
def append (n : Nat) : List Char → Nat × Nat
  | [] => (n, 0)
  | d :: ds =>
    let m := n * 10 + digitsValue [d]
    if m ≤ greatest then append m ds else (n, ds.length + 1)

def tenTo (k : Nat) : Double := .ofNat (Nat.pow 10 k)

/-- A number times a power of ten, in at most `fuel` steps of the widest power that is finite;
nothing if the result is infinite. -/
def scale : Nat → Double → Int → Option Double
  | 0, x, _ => some x
  | fuel + 1, x, e =>
    if e.natAbs ≤ 308 then
      if 0 ≤ e then
        let y := x.mul (tenTo e.toNat)
        if y.isFinite then some y else none
      else some (x.div (tenTo e.natAbs))
    else if x.eqv .zero then some x
    else if 0 ≤ e then none
    else scale fuel (x.div (tenTo 308)) (e + 308)

/-- The number of digits of an exponent until it leaves 32 bits, if it does. -/
def wideExponent? (n count : Nat) : List Char → Option Nat
  | [] => none
  | d :: ds =>
    let m := n * 10 + digitsValue [d]
    if m < UInt32.size / 2 then wideExponent? m (count + 1) ds else some (count + 1)

/-- The kept digits and the power of ten that belongs to them, without the spelled exponent. -/
def mantissa (n : Numeral) : Nat × Int :=
  let (m, dropped) := append 0 n.whole
  let ds := n.fraction.getD []
  let (m, ignored) := append m ds
  (m, (dropped : Int) - ((ds.length - ignored : Nat) : Int))

/-- The value of the number as a fraction, if it is finite. -/
def real? (n : Numeral) : Option Double :=
  let (m, e) := n.mantissa
  let wide : Option Double → Option Double := fun x => (if n.negative then x.map .neg else x)
  match n.exponent with
  | none => wide (scale 4 (.ofNat m) e)
  | some (s, ds) =>
    if (wideExponent? 0 0 ds).isSome then
      if m ≠ 0 && !s then none else wide (some .zero)
    else wide (scale 4 (.ofNat m) (if s then e - digitsValue ds else e + digitsValue ds))

/-- The value of the number: an integer if it is spelled as one and fits in 64 bits. A negative
zero is a fraction. -/
def value? (n : Numeral) : Option Number :=
  match n.fraction, n.exponent with
  | none, none =>
    let m := digitsValue n.whole
    if n.negative then
      if m ≠ 0 ∧ m ≤ UInt64.size / 2 then some (.int (-m)) else n.real?.map .real
    else if m ≤ greatest then some (.int m) else n.real?.map .real
  | _, _ => n.real?.map .real

/-- The fault of a number without a value: it is found at its end, or where the exponent leaves
32 bits. -/
def outOfRange (n : Numeral) (rest : List Char) : Fault :=
  match n.exponent with
  | some (_, ds) => ⟨.numberOutOfRange,
      utf8Length rest + match wideExponent? 0 0 ds with
        | some k => ds.length - k
        | none => 0⟩
  | none => ⟨.numberOutOfRange, utf8Length rest⟩

end Numeral

end TaskFlow.Json
