import TaskFlow.Csv.Writer
import TaskFlow.Rows.Key
import TaskFlow.Table.Basic
import TaskFlow.Table.StorageError
import TaskFlow.Text.Lines

namespace TaskFlow

namespace Table

def lineRow (line : Text.Bytes) : Except StorageError (Option Row) := do
  let s ← match Text.lineText? line with
    | some s => pure s
    | none => throw .notText
  if Text.blank s then return none
  match Json.parse s with
  | .ok j => return some j
  | .error f => throw (.malformed f.cause.isEnd (f.message s))

def linesRows : List Text.Bytes → Except StorageError (List Row)
  | [] => .ok []
  | l :: ls => do
    let r ← lineRow l
    let rs ← linesRows ls
    return r.toList ++ rs

def parseJsonl (content : Text.Bytes) : Except StorageError (List Row) := linesRows (Text.lines content)

/-- The row of a data record: a column beyond the record is empty. -/
def csvRow (columns : List String) (cells : List String) : Row :=
  Json.ofFields (columns.mapIdx fun i c => (c, .str (cells[i]?.getD "")))

/-- The rows of data records; records of empty cells only are passed over. -/
def csvRows (columns : List String) : List Csv.RawRecord → Except StorageError (List Row)
  | [] => .ok []
  | r :: rs => do
    let cells ← (Csv.dataTexts r).mapError StorageError.tableText
    let rows ← csvRows columns rs
    return if cells.all String.isEmpty then rows else csvRow columns cells :: rows

def parseCsv (content : Text.Bytes) : Except StorageError (List Row) := do
  let records := Csv.records content
  let columns ← (Csv.headers records).mapError StorageError.tableText
  csvRows columns records.tail

def jsonlLine (row : Row) : Text.Bytes := Text.utf8 row.text ++ [Csv.lineFeed]

def toJsonl (t : Table) : Text.Bytes := t.rows.flatMap jsonlLine

/-- The text of a cell: nothing for a missing or null value, a text as it is, and any other value
as JSON. -/
def cell (row : Row) (column : String) : String :=
  match row.field? column with
  | none | some .null => ""
  | some (.str s) => s
  | some j => j.text

def toCsv (t : Table) : Text.Bytes :=
  Text.utf8 (Csv.recordsText (t.columns :: t.rows.map fun r => t.columns.map (cell r)))

end Table

namespace FileSystem

def readJsonl (fs : FileSystem) (path : String) : Except StorageError (List Row) := do
  let content ← (fs.read path).mapError StorageError.file
  Table.parseJsonl content

def readCsv (fs : FileSystem) (path : String) : Except StorageError (List Row) := do
  let content ← (fs.read path).mapError StorageError.tableFile
  Table.parseCsv content

/-- The extension of a path in lower case: what follows the last point of its last name, unless
the name only starts with a point. -/
def extension (path : String) : String :=
  match (components path).getLast? with
  | some (.normal name) =>
    let cs := name.toList.reverse
    match cs.dropWhile (· ≠ '.') with
    | [] | ['.'] => ""
    | _ => .ofList ((cs.takeWhile (· ≠ '.')).reverse.map Char.toLower)
  | _ => ""

/-- The rows of a file in the format that its extension tells. -/
def readRows (fs : FileSystem) (path : String) : Except StorageError (List Row) :=
  let ext := extension path
  if ext = "csv" then fs.readCsv path
  else if ext = "json" ∨ ext = "jsonl" ∨ ext = "ndjson" then fs.readJsonl path
  else .error (.unknownFormat ext path)

def readTable (fs : FileSystem) (path : String) : Except StorageError Table :=
  (fs.readJsonl path).map Table.ofRows

/-- Writes the rows of a table, one JSON value a line, and counts the bytes. -/
def writeJsonl (fs : FileSystem) (path : String) (t : Table) :
    FileSystem × Except StorageError Nat :=
  match fs.write path t.toJsonl with
  | (fs, .ok ()) => (fs, .ok t.toJsonl.length)
  | (fs, .error e) => (fs, .error (.file e))

def writeCsv (fs : FileSystem) (path : String) (t : Table) :
    FileSystem × Except StorageError Unit :=
  match fs.write path t.toCsv with
  | (fs, .ok ()) => (fs, .ok ())
  | (fs, .error e) => (fs, .error (.file e))

end FileSystem

end TaskFlow
