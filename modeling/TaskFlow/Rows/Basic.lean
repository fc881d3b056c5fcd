import TaskFlow.Rows.Key

namespace TaskFlow.Rows

/-- Each row with only the given fields; a missing one is null. -/
def select (fields : List String) (rows : List Row) : List Row :=
  rows.map fun r => Json.ofFields (fields.map fun f => (f, (r.field? f).getD .null))

/-- Two values that a filter takes for the same: equal ones, and scalars with the same text. -/
def matchesValue (v expected : Json) : Bool :=
  v.same expected || match v.keyText?, expected.keyText? with
    | some a, some b => a == b
    | _, _ => false

def filter (field : String) (expected : Json) (rows : List Row) : List Row :=
  rows.filter fun r => match r.field? field with
    | some v => matchesValue v expected
    | none => false

def addSum (key : String) (x : Double) : List (String × Double) → List (String × Double)
  | [] => [(key, Binary.zero.add x)]
  | (k, s) :: sums => if k = key then (k, s.add x) :: sums else (k, s) :: addSum key x sums

/-- The sums of a field by the key in another, in any order; rows without a key or a number do not
count. -/
def sums (key value : String) (rows : List Row) : List (String × Double) :=
  rows.foldl
    (fun acc r => match r.keyIn? key, (r.field? value).bind Json.number? with
      | some k, some x => addSum k x acc
      | _, _ => acc)
    []

def sumRow (key value : String) (s : String × Double) : Row :=
  Json.ofFields [(key, .str s.1), (value, Json.ofSum s.2)]

/-- One row for each key with the sum of its values, in the order of the keys. -/
def reduceByKey (key value : String) (rows : List Row) : List Row :=
  ((sums key value rows).mergeSort fun a b => a.1 ≤ b.1).map (sumRow key value)

/-- Adds a field of the right row: under its own name, or with a prefix if the name is taken. -/
def addRight (fs : List (String × Json)) (f : String × Json) : List (String × Json) :=
  if (Json.lookup f.1 fs).isSome then Json.insertField ("right_" ++ f.1) f.2 fs
  else Json.insertField f.1 f.2 fs

/-- One row out of two: all fields of the left one, then those of the right one but the key. -/
def merge (key : String) (left right : Row) : Row :=
  .obj ((right.fields.filter fun f => f.1 ≠ key).foldl addRight left.fields)

abbrev Index := List (String × List Row)

def Index.add (key : String) (row : Row) : Index → Index
  | [] => [(key, [row])]
  | (k, rs) :: ix => if k = key then (k, rs ++ [row]) :: ix else (k, rs) :: add key row ix

/-- The rows under a key, in the order in which they were added. -/
def Index.find (ix : Index) (key : String) : List Row :=
  ((ix.find? (·.1 == key)).map (·.2)).getD []

/-- The index of rows by a field; rows without a key are left out. -/
def index (key : String) (rows : List Row) : Index :=
  rows.foldl
    (fun ix r => match r.keyIn? key with
      | some k => Index.add k r ix
      | none => ix)
    []

/-- Every pair of a left and a right row with the same key, merged; left rows in order, and for
each the right ones in order. -/
def joinByKey (key : String) (left right : List Row) : List Row :=
  let ix := index key right
  left.flatMap fun l => match l.keyIn? key with
    | some k => (ix.find k).map (merge key l)
    | none => []

end TaskFlow.Rows
