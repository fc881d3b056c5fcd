namespace TaskFlow.Text

abbrev Bytes := List UInt8

def utf8 (s : String) : Bytes := s.toList.flatMap String.utf8EncodeChar

def utf8Length (cs : List Char) : Nat := cs.foldl (fun n c => n + c.utf8Size) 0

namespace Utf8

/-- A character of which bytes are still to come, the next of them between `low` and `high`. -/
structure Unfinished where
  missing : Nat
  value : Nat
  low : Nat := 0x80
  high : Nat := 0xbf

/-- What a byte at the start of a character means. -/
inductive Lead
  | whole (c : Char)
  | more (u : Unfinished)
  | bad

/-- The second byte is bounded so that no value has two spellings and no surrogate has one. -/
def lead (n : Nat) : Lead :=
  if n < 0x80 then .whole (.ofNat n)
  else if n < 0xc2 then .bad
  else if n ≤ 0xdf then .more ⟨1, n - 0xc0, 0x80, 0xbf⟩
  else if n = 0xe0 then .more ⟨2, 0, 0xa0, 0xbf⟩
  else if n = 0xed then .more ⟨2, 0xd, 0x80, 0x9f⟩
  else if n ≤ 0xef then .more ⟨2, n - 0xe0, 0x80, 0xbf⟩
  else if n = 0xf0 then .more ⟨3, 0, 0x90, 0xbf⟩
  else if n ≤ 0xf3 then .more ⟨3, n - 0xf0, 0x80, 0xbf⟩
  else if n = 0xf4 then .more ⟨3, 4, 0x80, 0x8f⟩
  else .bad

/-- The characters of a byte sequence after an unfinished one, with `none` for each broken piece. -/
def piecesFrom : Option Unfinished → Bytes → List (Option Char)
  | none, [] => []
  | some _, [] => [none]
  | none, b :: bs =>
    match lead b.toNat with
    | .whole c => some c :: piecesFrom none bs
    | .more u => piecesFrom (some u) bs
    | .bad => none :: piecesFrom none bs
  | some u, b :: bs =>
    if u.low ≤ b.toNat ∧ b.toNat ≤ u.high then
      let value := u.value * 64 + (b.toNat - 0x80)
      if u.missing ≤ 1 then some (.ofNat value) :: piecesFrom none bs
      else piecesFrom (some ⟨u.missing - 1, value, 0x80, 0xbf⟩) bs
    else
      none :: match lead b.toNat with
        | .whole c => some c :: piecesFrom none bs
        | .more v => piecesFrom (some v) bs
        | .bad => none :: piecesFrom none bs

end Utf8

def pieces (bs : Bytes) : List (Option Char) := Utf8.piecesFrom none bs

def fromUtf8? (bs : Bytes) : Option String := ((pieces bs).mapM id).map .ofList

/-- The text of a byte sequence with a replacement mark for each broken piece. -/
def fromUtf8Lossy (bs : Bytes) : String := .ofList ((pieces bs).map (·.getD '\ufffd'))

def validLength (bs : Bytes) : Nat :=
  utf8Length (((pieces bs).takeWhile Option.isSome).filterMap id)

end TaskFlow.Text
