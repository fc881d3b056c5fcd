import TaskFlow.Binary.Shortest
import TaskFlow.Json.Basic

namespace TaskFlow

/-- Numbers of 64 bits are positional from 1e-5 up to 1e16 and keep a fraction digit. -/
def Number.layout : NumberLayout := ⟨some (-5, 16), true⟩

/-- Numbers of 32 bits are positional from 1e-6 up to 1e13 and keep a fraction digit. -/
def Number.singleLayout : NumberLayout := ⟨some (-6, 13), true⟩

/-- The text of a binary number; one that is not finite has none and is null. -/
def Number.realText {f : BinaryFormat} (l : NumberLayout) (x : Binary f) : String :=
  if x.isFinite then x.text l "" "" else "null"

def Number.text : Number → String
  | .int n => toString n
  | .real x => realText layout x
  | .single x => realText singleLayout x

namespace Json

def hexDigit (n : Nat) : Char := (Nat.toDigits 16 n).headD '0'

/-- A character inside a quoted text: quotes, backslashes and control characters are escaped. -/
def escape (c : Char) : List Char :=
  if c = '"' then ['\\', '"']
  else if c = '\\' then ['\\', '\\']
  else if c = '\x08' then ['\\', 'b']
  else if c = '\t' then ['\\', 't']
  else if c = '\n' then ['\\', 'n']
  else if c = '\x0c' then ['\\', 'f']
  else if c = '\r' then ['\\', 'r']
  else if c.toNat < 0x20 then
    ['\\', 'u', '0', '0', hexDigit (c.toNat / 16), hexDigit (c.toNat % 16)]
  else [c]

def quote (s : String) : List Char := '"' :: s.toList.flatMap escape ++ ['"']

mutual

def chars : Json → List Char
  | .null => "null".toList
  | .bool b => (if b then "true" else "false").toList
  | .num n => n.text.toList
  | .str s => quote s
  | .arr xs => '[' :: charsOfItems xs ++ [']']
  | .obj fs => '{' :: charsOfFields fs ++ ['}']

/-- The characters of the values of a list, with commas between them. -/
def charsOfItems : List Json → List Char
  | [] => []
  | [x] => chars x
  | x :: y :: xs => chars x ++ ',' :: charsOfItems (y :: xs)

def charsOfFields : List (String × Json) → List Char
  | [] => []
  | [(k, v)] => quote k ++ ':' :: chars v
  | (k, v) :: f :: fs => quote k ++ ':' :: chars v ++ ',' :: charsOfFields (f :: fs)

end

def text (j : Json) : String := .ofList j.chars

end Json

end TaskFlow
