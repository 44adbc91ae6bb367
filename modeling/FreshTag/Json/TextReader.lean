/-
FreshTag/Json/TextReader.lean

Reading a JSON string behind its opening quote.  A backslash starts an escape:
one of the eight short ones, or `u` and four digits of base 16.  Characters
beyond the first plane are two such escapes, a leading and a trailing
surrogate; a surrogate without its partner is refused.

`readText` gives the characters and what follows the closing quote;
`skipText` only checks the form and does not pair surrogates.
-/
import FreshTag.Json.Error
import FreshTag.Text.Hexadecimal

namespace FreshTag.Json

/-- The value of four digits of base 16. -/
def hex₄? (a b c d : Char) : Option Nat := do
  let a ← Text.hexValue? a
  let b ← Text.hexValue? b
  let c ← Text.hexValue? c
  let d ← Text.hexValue? d
  some (((a * 16 + b) * 16 + c) * 16 + d)

/-- Why four digits cannot be read: fewer than four bytes are left, or some are no digits. -/
def hexError (cs : List Char) : Error :=
  if (String.ofList (cs.take 4)).utf8ByteSize < 4 then .eofString else .invalidEscape

/-- The character that a backslash and this one stand for. -/
def shortEscape? (c : Char) : Option Char :=
  if c = '"' then some '"'
  else if c = '\\' then some '\\'
  else if c = '/' then some '/'
  else if c = 'b' then some '\x08'
  else if c = 'f' then some '\x0c'
  else if c = 'n' then some '\n'
  else if c = 'r' then some '\r'
  else if c = 't' then some '\t'
  else none

/-- The number is a leading surrogate. -/
def isLead (n : Nat) : Bool := 0xD800 ≤ n && n ≤ 0xDBFF

/-- The number is a trailing surrogate. -/
def isTrail (n : Nat) : Bool := 0xDC00 ≤ n && n ≤ 0xDFFF

/-- The character of a surrogate pair. -/
def paired (lead trail : Nat) : Char :=
  Char.ofNat (0x10000 + (lead - 0xD800) * 0x400 + (trail - 0xDC00))

/-- Puts a character in front of what was read. -/
def withChar (c : Char) (r : Except Error (List Char × List Char)) :
    Except Error (List Char × List Char) :=
  r.map fun (cs, rest) => (c :: cs, rest)

/-- The characters of a string and what follows its closing quote. -/
def readText : List Char → Except Error (List Char × List Char)
  | [] => .error .eofString
  | c :: cs =>
    if c = '"' then .ok ([], cs)
    else if c = '\\' then
      match cs with
      | [] => .error .eofString
      | e :: cs =>
        if e = 'u' then
          match cs with
          | a :: b :: c :: d :: rest =>
            match hex₄? a b c d with
            | none => .error (hexError [a, b, c, d])
            | some n =>
              if isTrail n then .error .loneSurrogate
              else if isLead n then
                match rest with
                | [] => .error .eofString
                | '\\' :: [] => .error .eofString
                | '\\' :: 'u' :: a :: b :: c :: d :: rest =>
                  match hex₄? a b c d with
                  | none => .error (hexError [a, b, c, d])
                  | some m =>
                    if isTrail m then withChar (paired n m) (readText rest)
                    else .error .loneSurrogate
                | '\\' :: 'u' :: short => .error (hexError short)
                | _ => .error .endOfHexEscape
              else withChar (Char.ofNat n) (readText rest)
          | short => .error (hexError short)
        else match shortEscape? e with
          | some x => withChar x (readText cs)
          | none => .error .invalidEscape
    else if c.toNat < 0x20 then .error .controlCharacter
    else withChar c (readText cs)

/-- What follows the closing quote of a string. -/
def skipText : List Char → Except Error (List Char)
  | [] => .error .eofString
  | c :: cs =>
    if c = '"' then .ok cs
    else if c = '\\' then
      match cs with
      | [] => .error .eofString
      | e :: cs =>
        if e = 'u' then
          match cs with
          | a :: b :: c :: d :: rest =>
            match hex₄? a b c d with
            | none => .error (hexError [a, b, c, d])
            | some _ => skipText rest
          | short => .error (hexError short)
        else match shortEscape? e with
          | some _ => skipText cs
          | none => .error .invalidEscape
    else if c.toNat < 0x20 then .error .controlCharacter
    else skipText cs

/-- Reads a string behind its opening quote. -/
def readString (cs : List Char) : Except Error (String × List Char) :=
  (readText cs).map fun (text, rest) => (String.ofList text, rest)

end FreshTag.Json
