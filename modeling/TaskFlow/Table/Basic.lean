import TaskFlow.Json.Decode

namespace TaskFlow

structure Table where
  columns : List String
  rows : List Row
  deriving Inhabited

namespace Table

def addColumns (columns names : List String) : List String :=
  names.foldl (fun cs n => if cs.contains n then cs else cs ++ [n]) columns

/-- The table of rows: its columns are the fields of the rows in order of appearance. -/
def ofRows (rows : List Row) : Table :=
  ⟨rows.foldl (fun cs r => addColumns cs (r.fields.map (·.1))) [], rows⟩

def length (t : Table) : Nat := t.rows.length

def same (t u : Table) : Bool := t.columns == u.columns && Json.sameItems t.rows u.rows

def toJson (t : Table) : Json :=
  .obj [("columns", .arr (t.columns.map .str)), ("rows", .arr t.rows)]

open Json.Decode in
def decode : Json.Decoder Table :=
  record "struct Table" false
    (.cons { name := "columns", read := list string }
      (.cons { name := "rows", read := list json } .nil))
    fun (columns, rows, ()) => ⟨columns, rows⟩

end Table

end TaskFlow
