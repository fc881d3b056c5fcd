namespace TaskFlow

/-- A binary format: the bits of the mantissa and the least and greatest exponent of its last bit. -/
structure BinaryFormat where
  precision : Nat
  minExponent : Int
  maxExponent : Int
  deriving DecidableEq, Repr

abbrev BinaryFormat.double : BinaryFormat := ⟨53, -1074, 971⟩

abbrev BinaryFormat.single : BinaryFormat := ⟨24, -149, 104⟩

/-- A number of a binary format. Operations return finite ones with a full mantissa, or with the
least exponent where they are too small for that. -/
inductive Binary (f : BinaryFormat)
  | nan
  | infinite (negative : Bool)
  | finite (negative : Bool) (mantissa : Nat) (exponent : Int)
  deriving DecidableEq, Repr, Inhabited

abbrev Double := Binary .double

abbrev Single := Binary .single

/-- The nearest integer to `num / den`, a tie going to the even one. -/
def roundDiv (num den : Nat) : Nat :=
  let q := num / den
  let r := num % den
  if 2 * r > den ∨ (2 * r = den ∧ q % 2 = 1) then q + 1 else q

def powPos (e : Int) : Nat := Nat.pow 2 e.toNat

namespace Binary

variable {f : BinaryFormat}

def signedZero (negative : Bool) : Binary f := .finite negative 0 f.minExponent

def zero : Binary f := signedZero false

/-- The exponent of the last bit that a full mantissa for `num / den` has. -/
def lastBit (f : BinaryFormat) (num den : Nat) : Int :=
  let top : Int := (num.log2 : Int) - den.log2
  let top := if num * powPos (-top) < den * powPos top then top - 1 else top
  max f.minExponent (top - f.precision + 1)

def ofRatio (negative : Bool) (num den : Nat) : Binary f :=
  if num = 0 then signedZero negative
  else
    let e := lastBit f num den
    let m := roundDiv (num * powPos (-e)) (den * powPos e)
    let (m, e) := if m = Nat.pow 2 f.precision then (m / 2, e + 1) else (m, e)
    if e > f.maxExponent then .infinite negative else .finite negative m e

def ofDyadic (negative : Bool) (m : Nat) (e : Int) : Binary f :=
  ofRatio negative (m * powPos e) (powPos (-e))

def ofNat (n : Nat) : Binary f := ofRatio false n 1

def ofInt (n : Int) : Binary f := ofRatio (n < 0) n.natAbs 1

def convert {g : BinaryFormat} : Binary g → Binary f
  | .nan => .nan
  | .infinite s => .infinite s
  | .finite s m e => ofDyadic s m e

def isNegative : Binary f → Bool
  | .nan => false
  | .infinite s => s
  | .finite s _ _ => s

def isFinite : Binary f → Bool
  | .finite .. => true
  | _ => false

def neg : Binary f → Binary f
  | .nan => .nan
  | .infinite s => .infinite !s
  | .finite s m e => .finite (!s) m e

def abs : Binary f → Binary f
  | .nan => .nan
  | .infinite _ => .infinite false
  | .finite _ m e => .finite false m e

def signed (negative : Bool) (m : Nat) : Int := if negative then -(m : Int) else m

/-- A signed integer times a power of two, rounded; an exact zero is positive unless told else. -/
def ofSigned (zeroNegative : Bool) (n : Int) (e : Int) : Binary f :=
  if n = 0 then signedZero zeroNegative else ofDyadic (n < 0) n.natAbs e

def add : Binary f → Binary f → Binary f
  | .nan, _ | _, .nan => .nan
  | .infinite s, .infinite t => if s = t then .infinite s else .nan
  | .infinite s, _ | _, .infinite s => .infinite s
  | .finite s m a, .finite t n b =>
    let e := min a b
    ofSigned (s && t) (signed s m * powPos (a - e) + signed t n * powPos (b - e)) e

def sub (x y : Binary f) : Binary f := x.add y.neg

def mul : Binary f → Binary f → Binary f
  | .nan, _ | _, .nan => .nan
  | .infinite s, .infinite t => .infinite (s != t)
  | .infinite s, .finite t n _ | .finite t n _, .infinite s =>
    if n = 0 then .nan else .infinite (s != t)
  | .finite s m a, .finite t n b => ofDyadic (s != t) (m * n) (a + b)

def div : Binary f → Binary f → Binary f
  | .nan, _ | _, .nan => .nan
  | .infinite _, .infinite _ => .nan
  | .infinite s, .finite t _ _ => .infinite (s != t)
  | .finite s _ _, .infinite t => signedZero (s != t)
  | .finite s m a, .finite t n b =>
    if n = 0 then (if m = 0 then .nan else .infinite (s != t))
    else ofRatio (s != t) (m * powPos (a - b)) (n * powPos (b - a))

/-- The order of two numbers; undefined where one of them is. Zeros of both signs are equal. -/
def compare? : Binary f → Binary f → Option Ordering
  | .nan, _ | _, .nan => none
  | .infinite s, .infinite t => some (if s = t then .eq else if s then .lt else .gt)
  | .infinite s, _ => some (if s then .lt else .gt)
  | _, .infinite t => some (if t then .gt else .lt)
  | .finite s m a, .finite t n b =>
    let e := min a b
    some (compare (signed s m * powPos (a - e)) (signed t n * powPos (b - e)))

def le (x y : Binary f) : Bool :=
  match compare? x y with
  | some .lt | some .eq => true
  | _ => false

def lt (x y : Binary f) : Bool := compare? x y == some .lt

def eqv (x y : Binary f) : Bool := compare? x y == some .eq

def max (x y : Binary f) : Binary f :=
  match x, y with
  | .nan, y => y
  | x, .nan => x
  | x, y => if lt x y then y else x

/-- The integer between zero and the number that is nearest to it. -/
def truncate? : Binary f → Option Int
  | .finite s m e => some (signed s (m * powPos e / powPos (-e)))
  | _ => none

def isInteger : Binary f → Bool
  | .finite _ m e => m * powPos e % powPos (-e) == 0
  | _ => false

def round : Binary f → Binary f
  | .finite s m e =>
    let den := powPos (-e)
    ofRatio s ((2 * m * powPos e + den) / (2 * den)) 1
  | x => x

end Binary

end TaskFlow
