/-
Quoted strings.

A string is written between double quotes so that it stays on one line and
shows what it holds: the quote, the backslash and the common controls have short
escapes, and any other character that leaves no mark of its own on the line is
written by its code point.
-/
import Igd.Text.Unshown

namespace Igd.Text

/-- One character as it stands inside a quoted string. -/
def quotedChar (c : Char) : List Char :=
  if c = '"' then ['\\', '"']
  else if c = '\\' then ['\\', '\\']
  else if c = '\n' then ['\\', 'n']
  else if c = '\t' then ['\\', 't']
  else if c = '\r' then ['\\', 'r']
  else if c.toNat = 0 then ['\\', '0']
  else if isUnshown c then
    ['\\', 'u', '\x7b'] ++ Nat.toDigits 16 c.toNat ++ ['\x7d']
  else [c]

/-- A string between double quotes, escaped. -/
def quoted (s : String) : String :=
  String.ofList (['"'] ++ s.toList.flatMap quotedChar ++ ['"'])

end Igd.Text
