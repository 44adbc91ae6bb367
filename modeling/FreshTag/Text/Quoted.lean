/-
FreshTag/Text/Quoted.lean

A text between double quotes, as error messages show it: the quote and the
backslash get a backslash, the usual control characters their letter, and any
other character of `Text/EscapeTable` its number in braces.
-/
import FreshTag.Text.EscapeTable
import FreshTag.Text.Hexadecimal

namespace FreshTag.Text

/-- One character inside quotes. -/
def quotedChar (c : Char) : List Char :=
  if c = '"' then ['\\', '"']
  else if c = '\\' then ['\\', '\\']
  else if c = '\x00' then ['\\', '0']
  else if c = '\t' then ['\\', 't']
  else if c = '\r' then ['\\', 'r']
  else if c = '\n' then ['\\', 'n']
  else if isShownByNumber c then ['\\', 'u', '\x7b'] ++ hexText c.toNat ++ ['\x7d']
  else [c]

/-- The quoted form of a text. -/
def quoted (s : String) : String :=
  String.ofList ('"' :: s.toList.flatMap quotedChar ++ ['"'])

end FreshTag.Text
