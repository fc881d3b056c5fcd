import TaskFlow.Binary.Basic

namespace TaskFlow

structure Decimal where
  digits : Nat
  exponent : Int
  deriving DecidableEq, Repr

def tenPos (e : Int) : Nat := Nat.pow 10 e.toNat

/-- How many times a number can be multiplied by ten before it reaches `den`, at most `fuel`. -/
def tensBelow (num den : Nat) : Nat → Nat
  | 0 => 0
  | fuel + 1 => if num < den then tensBelow (num * 10) den fuel + 1 else 0

namespace Decimal

/-- The exponent of the first decimal digit of `num / den`; `fuel` bounds how small it may be. -/
def leading (fuel num den : Nat) : Int :=
  if num < den then -(tensBelow num den fuel : Int)
  else (Nat.toDigits 10 (num / den)).length - 1

/-- An interval of rationals over one denominator around `mid`, its ends counted or not. -/
structure Interval where
  low : Nat
  mid : Nat
  high : Nat
  den : Nat
  closed : Bool

def Interval.contains (i : Interval) (num den : Nat) : Bool :=
  let x := num * i.den
  if i.closed then i.low * den ≤ x && x ≤ i.high * den else i.low * den < x && x < i.high * den

/-- The numbers that round to `mantissa · 2 ^ exponent`, which is not zero. -/
def Interval.around (f : BinaryFormat) (mantissa : Nat) (exponent : Int) : Interval :=
  let narrow := mantissa = Nat.pow 2 (f.precision - 1) ∧ exponent > f.minExponent
  let scale := powPos (exponent - 2)
  { low := (4 * mantissa - if narrow then 1 else 2) * scale
    mid := 4 * mantissa * scale
    high := (4 * mantissa + 2) * scale
    den := powPos (2 - exponent)
    closed := mantissa % 2 == 0 }

/-- The better of the two neighbours of the interval's middle on the grid of step `10 ^ k`. -/
def onGrid? (i : Interval) (k : Int) : Option Nat :=
  let unit := tenPos k
  let per := tenPos (-k)
  let d := i.mid * per / (i.den * unit)
  let below := i.contains (d * unit) per
  let above := i.contains ((d + 1) * unit) per
  if below && above then
    some (if roundDiv (i.mid * per) (i.den * unit) = d then d else d + 1)
  else if below then some d
  else if above then some (d + 1)
  else none

/-- The first grid, coarsest first, that has a point in the interval. -/
def firstGrid (i : Interval) (k : Int) : Nat → Decimal
  | 0 => ⟨i.mid * tenPos (-k) / (i.den * tenPos k), k⟩
  | n + 1 => match onGrid? i k with
    | some d => ⟨d, k⟩
    | none => firstGrid i (k - 1) n

/-- The same number with no zero at the end of its digits. -/
def normalizeWith : Nat → Decimal → Decimal
  | 0, d => d
  | fuel + 1, d =>
    if d.digits % 10 = 0 ∧ d.digits ≠ 0 then normalizeWith fuel ⟨d.digits / 10, d.exponent + 1⟩
    else d

end Decimal

/-- The shortest decimal that rounds to `mantissa · 2 ^ exponent`, which is not zero. -/
def shortest (f : BinaryFormat) (mantissa : Nat) (exponent : Int) : Decimal :=
  let i := Decimal.Interval.around f mantissa exponent
  let fuel := f.minExponent.natAbs
  (Decimal.firstGrid i (Decimal.leading fuel i.mid i.den) 20).normalizeWith 20

/-- How the digits of a number are laid out. -/
structure NumberLayout where
  /-- The least and the first too large decimal exponent that are written positionally. -/
  positional : Option (Int × Int)
  /-- Whether an integer gets a zero fraction. -/
  fraction : Bool

/-- A non-negative decimal exponent with its sign. -/
def exponentText (e : Int) : String := (if e < 0 then "e-" else "e+") ++ toString e.natAbs

def NumberLayout.text (l : NumberLayout) (d : Decimal) : String :=
  let ds := Nat.toDigits 10 d.digits
  let lead := d.exponent + ds.length - 1
  let inside := match l.positional with
    | none => true
    | some (lo, hi) => lo ≤ lead && lead < hi
  if inside then
    if 0 ≤ d.exponent then
      .ofList (ds ++ List.replicate d.exponent.toNat '0') ++ if l.fraction then ".0" else ""
    else if 0 ≤ lead then
      .ofList (ds.take (lead.toNat + 1) ++ '.' :: ds.drop (lead.toNat + 1))
    else .ofList ('0' :: '.' :: (List.replicate (-lead - 1).toNat '0' ++ ds))
  else match ds with
    | [c] => c.toString ++ exponentText lead
    | cs => .ofList (cs.take 1 ++ '.' :: cs.drop 1) ++ exponentText lead

/-- The shortest text of a number that reads back, with the texts of the undefined and the
infinite number. -/
def Binary.text {f : BinaryFormat} (l : NumberLayout) (undefined infinity : String) :
    Binary f → String
  | .nan => undefined
  | .infinite s => (if s then "-" else "") ++ infinity
  | .finite s m e =>
    (if s then "-" else "") ++
      if m = 0 then (if l.fraction then "0.0" else "0") else l.text (shortest f m e)

end TaskFlow
