import TaskFlow.Text.HiddenTable
import TaskFlow.Text.Lowercase

namespace TaskFlow.Text

def isHidden (c : Char) : Bool := c.toNat < 0x20 || (c.toNat > 0x7e && inRanges hiddenRanges c.toNat)

def hex (n : Nat) : String := .ofList (Nat.toDigits 16 n)

def quotedChar (c : Char) : String :=
  if c = '"' then "\\\"" else if c = '\\' then "\\\\"
  else if c = '\n' then "\\n" else if c = '\r' then "\\r" else if c = '\t' then "\\t"
  else if c = '\x00' then "\\0"
  else if isHidden c then "\\u\x7b" ++ hex c.toNat ++ "\x7d"
  else c.toString

def quoted (s : String) : String := "\"" ++ String.join (s.toList.map quotedChar) ++ "\""

end TaskFlow.Text
