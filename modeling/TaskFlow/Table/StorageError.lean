import TaskFlow.Csv.Reader
import TaskFlow.FileSystem.Basic

namespace TaskFlow

inductive StorageError
  | file (e : FileError)
  | notText
  | malformed (ended : Bool) (message : String)
  | tableFile (e : FileError)
  | tableText (e : Csv.EncodingError)
  | unknownFormat (extension path : String)
  deriving DecidableEq, Repr

def StorageError.text : StorageError → String
  | .file e => e.text
  | .notText => "stream did not contain valid UTF-8"
  | .malformed _ message => message
  | .tableFile e => e.text
  | .tableText e => e.text
  | .unknownFormat extension path =>
    "no sé leer archivos con extensión '" ++ extension ++ "': " ++ path

def StorageError.cause? : StorageError → Option String
  | .tableFile e => some e.text
  | .tableText e => some e.reason
  | _ => none

end TaskFlow
