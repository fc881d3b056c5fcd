import TaskFlow.Json.Printer
import TaskFlow.Text.Utf8

namespace TaskFlow.Http

/-- A request. The path still has its escapes, and may be followed by a query. -/
structure Request where
  method : String
  path : String
  contentType : Option String := none
  body : String := ""
  deriving DecidableEq, Repr

structure Response where
  status : Nat
  body : String := ""
  deriving DecidableEq, Repr

def Response.ofJson (status : Nat) (j : Json) : Response := ⟨status, j.text⟩

def hexValue? (c : Char) : Option Nat :=
  if c.isDigit then some (c.toNat - '0'.toNat)
  else if 'a' ≤ c ∧ c ≤ 'f' then some (c.toNat - 'a'.toNat + 10)
  else if 'A' ≤ c ∧ c ≤ 'F' then some (c.toNat - 'A'.toNat + 10)
  else none

/-- The bytes of a part of a path; a percent sign with two digits stands for a byte. -/
def unescape : List Char → Text.Bytes
  | [] => []
  | '%' :: a :: b :: cs =>
    match hexValue? a, hexValue? b with
    | some x, some y => UInt8.ofNat (x * 16 + y) :: unescape cs
    | _, _ => Text.utf8 "%" ++ unescape (a :: b :: cs)
  | c :: cs => Text.utf8 c.toString ++ unescape cs

def Request.segments (r : Request) : List String :=
  ((r.path.toList.takeWhile fun c => c ≠ '?' && c ≠ '#').splitOn '/').map String.ofList

end TaskFlow.Http
