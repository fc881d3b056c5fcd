import TaskFlow.Binary.Basic

namespace TaskFlow

/-- An integer from -2^63 to 2^64 - 1, or a finite binary number; those of 32 bits come from records
that are written. -/
inductive Number
  | int (n : Int)
  | real (x : Double)
  | single (x : Single)
  deriving DecidableEq, Repr, Inhabited

inductive Json
  | null
  | bool (b : Bool)
  | num (n : Number)
  | str (s : String)
  | arr (items : List Json)
  | obj (fields : List (String × Json))
  deriving Inhabited

abbrev Row := Json

def Number.toDouble : Number → Double
  | .int n => .ofInt n
  | .real x => x
  | .single x => x.convert

def Number.same : Number → Number → Bool
  | .int m, .int n => m == n
  | .real x, .real y => x.eqv y
  | .single x, .single y => x.eqv y
  | _, _ => false

namespace Json

def ofNat (n : Nat) : Json := .num (.int n)

def ofDouble (x : Double) : Json := if x.isFinite then .num (.real x) else .null

/-- A binary number of 32 bits as a value; only finite numbers have one. -/
def ofSingle (x : Single) : Json := if x.isFinite then .num (.single x) else .null

mutual

def same : Json → Json → Bool
  | .null, .null => true
  | .bool a, .bool b => a == b
  | .num m, .num n => m.same n
  | .str s, .str t => s == t
  | .arr xs, .arr ys => sameItems xs ys
  | .obj fs, .obj gs => sameFields fs gs
  | _, _ => false

def sameItems : List Json → List Json → Bool
  | [], [] => true
  | x :: xs, y :: ys => same x y && sameItems xs ys
  | _, _ => false

def sameFields : List (String × Json) → List (String × Json) → Bool
  | [], [] => true
  | (k, x) :: fs, (l, y) :: gs => k == l && same x y && sameFields fs gs
  | _, _ => false

end

/-- Sets a field in a list of fields sorted by name, in its place. -/
def insertField (name : String) (value : Json) : List (String × Json) → List (String × Json)
  | [] => [(name, value)]
  | (k, v) :: fs =>
    if name < k then (name, value) :: (k, v) :: fs
    else if name = k then (name, value) :: fs
    else (k, v) :: insertField name value fs

def lookup (name : String) (fields : List (String × Json)) : Option Json :=
  (fields.find? (·.1 == name)).map (·.2)

def fields : Json → List (String × Json)
  | .obj fs => fs
  | _ => []

def isObject : Json → Bool
  | .obj _ => true
  | _ => false

def field? (name : String) (j : Json) : Option Json := lookup name j.fields

/-- An object out of fields in any order, of which the last of a name counts. -/
def ofFields (fs : List (String × Json)) : Json :=
  .obj (fs.foldl (fun acc f => insertField f.1 f.2 acc) [])

mutual

/-- The value with every object sorted, the last field of a name counting. -/
def sorted : Json → Json
  | .arr xs => .arr (sortedItems xs)
  | .obj fs => .obj (sortedFields fs)
  | j => j

def sortedItems : List Json → List Json
  | [] => []
  | x :: xs => sorted x :: sortedItems xs

/-- The fields of a list in the order of their names; of two with one name the later counts. -/
def sortedFields : List (String × Json) → List (String × Json)
  | [] => []
  | (k, v) :: fs =>
    let rest := sortedFields fs
    if (lookup k rest).isSome then rest else insertField k (sorted v) rest

end

end Json

end TaskFlow
