namespace TaskFlow.Text

def isBlank (c : Char) : Bool :=
  let n := c.toNat
  (0x9 ≤ n && n ≤ 0xd) || n == 0x20 || n == 0x85 || n == 0xa0 || n == 0x1680 ||
    (0x2000 ≤ n && n ≤ 0x200a) || n == 0x2028 || n == 0x2029 || n == 0x202f || n == 0x205f ||
    n == 0x3000

def strip {α : Type} (p : α → Bool) (xs : List α) : List α :=
  ((xs.dropWhile p).reverse.dropWhile p).reverse

def trim (s : String) : String := .ofList (strip isBlank s.toList)

def blank (s : String) : Bool := s.toList.all isBlank

def wordsOf : List Char → List (List Char)
  | [] => []
  | c :: cs =>
    if isBlank c then wordsOf cs
    else match cs, wordsOf cs with
      | [], ws => [c] :: ws
      | d :: _, ws => if isBlank d then [c] :: ws else match ws with
        | [] => [[c]]
        | w :: ws => (c :: w) :: ws

/-- A text with every run of blank characters made one space and none at the ends. -/
def squeeze (s : String) : String :=
  .ofList ((wordsOf s.toList).intersperse [' ']).flatten

end TaskFlow.Text
