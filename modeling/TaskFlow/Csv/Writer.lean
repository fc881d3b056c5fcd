import TaskFlow.Csv.Reader

namespace TaskFlow.Csv

def needsQuotes (c : Char) : Bool := c = ',' || c = '"' || c = '\n' || c = '\r'

def doubled : List Char → List Char
  | [] => []
  | c :: cs => if c = '"' then '"' :: '"' :: doubled cs else c :: doubled cs

def fieldChars (s : String) : List Char :=
  if s.toList.any needsQuotes then '"' :: doubled s.toList ++ ['"'] else s.toList

/-- The characters of a record and the line feed at its end. -/
def recordChars (fields : List String) : List Char :=
  let cs := ((fields.map fieldChars).intersperse [',']).flatten
  (if cs.isEmpty then ['"', '"'] else cs) ++ ['\n']

def recordsText (records : List (List String)) : String := .ofList (records.flatMap recordChars)

end TaskFlow.Csv
