import TaskFlow.Binary.Basic
import TaskFlow.Text.Blank

namespace TaskFlow

def digitsValue (ds : List Char) : Nat := ds.foldl (fun n c => n * 10 + (c.toNat - '0'.toNat)) 0

namespace Binary

variable {f : BinaryFormat}

/-- The number nearest to `±digits · 10 ^ exponent`, where `digits` has at most `count` digits.
Values far beyond the format are settled without their power of ten. -/
def ofDecimal (negative : Bool) (digits count : Nat) (exponent : Int) : Binary f :=
  if digits = 0 then signedZero negative
  else if (count : Int) + exponent < f.minExponent then signedZero negative
  else if exponent > f.maxExponent then .infinite negative
  else ofRatio negative (digits * Nat.pow 10 exponent.toNat) (Nat.pow 10 (-exponent).toNat)

def exponent? : List Char → Option Int
  | '-' :: ds => if ds ≠ [] && ds.all Char.isDigit then some (-digitsValue ds) else none
  | '+' :: ds | ds => if ds ≠ [] && ds.all Char.isDigit then some (digitsValue ds) else none

/-- An unsigned decimal: digits with or without a point, and perhaps an exponent. -/
def unsigned? (negative : Bool) (cs : List Char) : Option (Binary f) := do
  let whole := cs.takeWhile Char.isDigit
  let rest := cs.dropWhile Char.isDigit
  let (fraction, rest) := match rest with
    | '.' :: r => (r.takeWhile Char.isDigit, r.dropWhile Char.isDigit)
    | r => ([], r)
  let ds := whole ++ fraction
  guard (ds ≠ [])
  let e ← match rest with
    | [] => some 0
    | c :: r => if c = 'e' ∨ c = 'E' then exponent? r else none
  return ofDecimal negative (digitsValue ds) ds.length (e - fraction.length)

/-- The number that a text spells: a decimal, or one of the words for the infinite and the
undefined number, with an optional sign. -/
def parse? (s : String) : Option (Binary f) :=
  let (negative, cs) := match s.toList with
    | '-' :: cs => (true, cs)
    | '+' :: cs => (false, cs)
    | cs => (false, cs)
  let word := String.ofList (cs.map Char.toLower)
  if word = "inf" ∨ word = "infinity" then some (.infinite negative)
  else if word = "nan" then some .nan
  else unsigned? negative cs

end Binary

end TaskFlow
