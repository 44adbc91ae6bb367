/-
FreshTag/Json/Printer.lean

The compact text of a JSON value: no white space, members in the order of
their keys, whole numbers exactly, other numbers as the shortest decimal.
Inside a string the quote, the backslash and the control characters below
U+0020 are escaped, nothing else.
-/
import FreshTag.Json.Value
import FreshTag.Number.Shortest
import FreshTag.Text.Quoted

namespace FreshTag.Json

/-- One character inside a string. -/
def escapeChar (c : Char) : List Char :=
  if c = '"' then ['\\', '"']
  else if c = '\\' then ['\\', '\\']
  else if c = '\x08' then ['\\', 'b']
  else if c = '\x0c' then ['\\', 'f']
  else if c = '\n' then ['\\', 'n']
  else if c = '\r' then ['\\', 'r']
  else if c = '\t' then ['\\', 't']
  else if c.toNat < 0x20 then
    ['\\', 'u', '0', '0', Text.hexDigit (c.toNat / 16), Text.hexDigit (c.toNat % 16)]
  else [c]

/-- A string with its quotes. -/
def printText (cs : List Char) : List Char :=
  '"' :: cs.flatMap escapeChar ++ ['"']

/-- A string with its quotes. -/
def printString (s : String) : List Char :=
  printText s.toList

/-- The text of a number. -/
def Number.print : Number → List Char
  | .natural n => Nat.toDigits 10 n
  | .negative n => '-' :: Nat.toDigits 10 n
  | .float x => x.scientificText

/-- Parts with commas between them. -/
def commaSeparated : List (List Char) → List Char
  | [] => []
  | [part] => part
  | part :: rest => part ++ ',' :: commaSeparated rest

/-- A member: key, colon, value. -/
def printMember (key : String) (value : List Char) : List Char :=
  printString key ++ ':' :: value

/-- Members between braces. -/
def braced (parts : List (List Char)) : List Char :=
  '{' :: commaSeparated parts ++ ['}']

mutual

/-- The text of a value. -/
def Value.print : Value → List Char
  | .null => ['n', 'u', 'l', 'l']
  | .bool true => ['t', 'r', 'u', 'e']
  | .bool false => ['f', 'a', 'l', 's', 'e']
  | .number n => n.print
  | .string s => printString s
  | .array items => '[' :: commaSeparated (printItems items) ++ [']']
  | .object members => braced (printMembers members)

/-- The texts of the items of an array. -/
def printItems : List Value → List (List Char)
  | [] => []
  | v :: vs => v.print :: printItems vs

/-- The texts of the members of an object. -/
def printMembers : List (String × Value) → List (List Char)
  | [] => []
  | (k, v) :: ms => printMember k v.print :: printMembers ms

end

/-- The text of a value. -/
def Value.text (v : Value) : String :=
  String.ofList v.print

/-- A string or `null`. -/
def Value.ofString? : Option String → Value
  | some s => .string s
  | none => .null

end FreshTag.Json
