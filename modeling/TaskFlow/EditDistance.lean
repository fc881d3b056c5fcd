import TaskFlow.Binary.Basic
import TaskFlow.Text.Blank
import TaskFlow.Text.Lowercase

namespace TaskFlow

namespace EditDistance

/-- The rest of a row of distances: from the row above it, and the cell to the left. -/
def nextCells (c : Char) : List Char → List Nat → Nat → List Nat
  | d :: ds, diagonal :: above :: row, left =>
    let cell := min (min (above + 1) (left + 1)) (diagonal + if c = d then 0 else 1)
    cell :: nextCells c ds (above :: row) cell
  | _, _, _ => []

def nextRow (bs : List Char) (row : List Nat) (c : Char) : List Nat :=
  let first := row.headD 0 + 1
  first :: nextCells c bs row first

/-- The distances of a text to every prefix of another, the empty one first. -/
def lastRow (as bs : List Char) : List Nat := as.foldl (nextRow bs) (List.range (bs.length + 1))

/-- The least number of insertions, deletions and replacements between two lists of characters. -/
def ofLists (as bs : List Char) : Nat := (lastRow as bs).getLastD 0

end EditDistance

/-- The least number of single-character insertions, deletions and replacements that turn one text
into the other. -/
def editDistance (a b : String) : Nat := EditDistance.ofLists a.toList b.toList

/-- A text as similarity sees it: in lower case, with single spaces between its words. -/
def normalForm (s : String) : String := Text.lowercase (Text.squeeze s)

/-- The similarity of two texts: one minus the edit distance of their normal forms in relation to
the longer of them. -/
def similarity (a b : String) : Double :=
  let a := normalForm a
  let b := normalForm b
  let longer := max a.length b.length
  if longer = 0 then .ofNat 1
  else (Binary.ofNat 1).sub ((Binary.ofNat (editDistance a b)).div (.ofNat longer))

end TaskFlow
