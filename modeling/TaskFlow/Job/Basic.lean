import TaskFlow.Json.Basic

namespace TaskFlow

inductive JobKind
  | execute
  | writeResults
  | createTable
  | fuzzyJoin
  deriving DecidableEq, Repr, Inhabited

def JobKind.all : List JobKind := [.execute, .writeResults, .createTable, .fuzzyJoin]

def JobKind.name : JobKind → String
  | .execute => "execute"
  | .writeResults => "write_results"
  | .createTable => "create_table"
  | .fuzzyJoin => "fuzzy_join"

def JobKind.ofName? (name : String) : Option JobKind := JobKind.all.find? (·.name == name)

inductive Step
  | rows (rows : List Row)
  | readCsv (path : String)
  | readJsonl (path : String)
  | filter (field : String) (equals : Json)
  | select (fields : List String)
  | reduceByKey (key value : String)
  | join (path key : String)
  | limit (n : Nat)
  | sleep (milliseconds : Nat)
  | fail (message : String)
  | abort
  deriving Inhabited

inductive FileFormat
  | csv
  | jsonl
  deriving DecidableEq, Repr, Inhabited

def FileFormat.name : FileFormat → String
  | .csv => "csv"
  | .jsonl => "jsonl"

/-- How files are read: in one format, or each as its extension tells. -/
inductive InputFormat
  | csv
  | jsonl
  | infer
  deriving DecidableEq, Repr, Inhabited

def InputFormat.name : InputFormat → String
  | .csv => "csv"
  | .jsonl => "jsonl"
  | .infer => "infer"

/-- Where the rows of one side of a join come from. -/
inductive DataSource
  | rows (rows : List Row)
  | csv (path : String)
  | jsonl (path : String)
  deriving Inhabited

/-- A script, one whose rows go to a file, a table out of all files that match a pattern, or a join
by similarity. -/
inductive Job
  | execute (steps : List Step)
  | writeResults (steps : List Step) (path : String) (format : FileFormat)
  | createTable (inputGlob : String) (format : InputFormat)
  | fuzzyJoin (left right : DataSource) (leftOn rightOn : String) (threshold : Double)
  deriving Inhabited

def Job.kind : Job → JobKind
  | .execute .. => .execute
  | .writeResults .. => .writeResults
  | .createTable .. => .createTable
  | .fuzzyJoin .. => .fuzzyJoin

def Step.input? : Step → Option String
  | .readCsv path | .readJsonl path | .join path _ => some path
  | _ => none

def DataSource.input? : DataSource → Option String
  | .rows _ => none
  | .csv path | .jsonl path => some path

/-- The files that a job names and reads; those that match a pattern are not known beforehand. -/
def Job.inputs : Job → List String
  | .execute steps | .writeResults steps _ _ => steps.filterMap Step.input?
  | .createTable .. => []
  | .fuzzyJoin left right _ _ _ => left.input?.toList ++ right.input?.toList

end TaskFlow
