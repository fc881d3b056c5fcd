import TaskFlow.Text.Utf8

namespace TaskFlow.Text

def newline : UInt8 := 10

def lines : Bytes → List Bytes
  | [] => []
  | b :: bs =>
    if b = newline then [b] :: lines bs
    else match lines bs with
      | [] => [[b]]
      | l :: ls => (b :: l) :: ls

/-- Characters without a line feed at the end, and without a carriage return before it. -/
def chomp (cs : List Char) : List Char :=
  match cs.reverse with
  | '\n' :: '\r' :: r => r.reverse
  | '\n' :: r => r.reverse
  | _ => cs

/-- The text of a line without what ends it, if it is text. -/
def lineText? (line : Bytes) : Option String :=
  (fromUtf8? line).map fun s => .ofList (chomp s.toList)

end TaskFlow.Text
