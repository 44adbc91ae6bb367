/-
FreshTag/Json/Reader.lean

Reading JSON values from the left.  A reader takes the characters that are
left and returns what it read with the characters after it, or the first cause
of a refusal.

Arrays and objects may be nested `nestingLimit` deep; the depth that is left
is the recursion argument of `readValue`.  The loops over items and members
are bounded by the number of characters left, which each round makes smaller.

An object inside a value whose first key is `embeddedKey` stands for the value
written in the string under that key.  The embedded text may nest as deep as a
text of its own.

`skipValue` passes over a value of any depth and reads nothing of it; it keeps
the open brackets on a stack.
-/
import FreshTag.Json.NumberReader
import FreshTag.Json.TextReader

namespace FreshTag.Json

/-- How many arrays and objects may be open at once. -/
def nestingLimit : Nat := 127

/-- The key that marks an embedded text. -/
def embeddedKey : String := "$serde_json::private::RawValue"

/-- White space between the parts of a text. -/
def isBlank (c : Char) : Bool :=
  c == ' ' || c == '\n' || c == '\t' || c == '\r'

/-- Drops the white space in front. -/
def skipBlank (cs : List Char) : List Char :=
  cs.dropWhile isBlank

/-- Reads the rest of a word. -/
def readWord : List Char → List Char → Except Error (List Char)
  | [], cs => .ok cs
  | _ :: _, [] => .error .eofValue
  | w :: ws, c :: cs => if c = w then readWord ws cs else .error .expectedIdent

/-- Checks that only white space is left. -/
def endOfText (cs : List Char) : Except Error Unit :=
  match skipBlank cs with
  | [] => .ok ()
  | _ :: _ => .error .trailingCharacters

/-! ### Arrays and objects -/

/-- Where the next item of an array starts; none if the array ends here. -/
def nextItem (first : Bool) (cs : List Char) : Except Error (Option (List Char)) :=
  match skipBlank cs with
  | [] => .error .eofList
  | c :: rest =>
    if c = ']' then .ok none
    else if first then .ok (some (c :: rest))
    else if c = ',' then
      match skipBlank rest with
      | [] => .error .eofValue
      | c :: rest => if c = ']' then .error .trailingComma else .ok (some (c :: rest))
    else .error .expectedListComma

/-- What follows the opening quote of the next key; none if the object ends here. -/
def nextKey (first : Bool) (cs : List Char) : Except Error (Option (List Char)) :=
  match skipBlank cs with
  | [] => .error .eofObject
  | c :: rest =>
    if c = '}' then .ok none
    else if first then
      if c = '"' then .ok (some rest) else .error .keyNotString
    else if c = ',' then
      match skipBlank rest with
      | [] => .error .eofValue
      | c :: rest =>
        if c = '"' then .ok (some rest)
        else if c = '}' then .error .trailingComma
        else .error .keyNotString
    else .error .expectedObjectComma

/-- Passes over the colon behind a key. -/
def readColon (cs : List Char) : Except Error (List Char) :=
  match skipBlank cs with
  | [] => .error .eofObject
  | c :: rest => if c = ':' then .ok rest else .error .expectedColon

/-- Passes over the end of an array. -/
def closeArray (cs : List Char) : Except Error (List Char) :=
  match skipBlank cs with
  | [] => .error .eofList
  | c :: rest =>
    if c = ']' then .ok rest
    else if c = ',' then
      if (skipBlank rest).head? = some ']' then .error .trailingComma
      else .error .trailingCharacters
    else .error .trailingCharacters

/-- Passes over the end of an object. -/
def closeObject (cs : List Char) : Except Error (List Char) :=
  match skipBlank cs with
  | [] => .error .eofObject
  | c :: rest =>
    if c = '}' then .ok rest
    else if c = ',' then .error .trailingComma
    else .error .trailingCharacters

/-- The items of an array, up to its end. -/
def readItems {α : Type} (item : List Char → Except Error (α × List Char)) :
    Nat → Bool → List Char → Except Error (List α × List Char)
  | 0, _, _ => .error .eofList
  | fuel + 1, first, cs => do
    match ← nextItem first cs with
    | none => .ok ([], cs)
    | some cs =>
      let (x, cs) ← item cs
      let (xs, cs) ← readItems item fuel false cs
      .ok (x :: xs, cs)

/-- The members of an object, up to its end. -/
def readMembers {α : Type} (value : List Char → Except Error (α × List Char)) :
    Nat → Bool → List Char → Except Error (List (String × α) × List Char)
  | 0, _, _ => .error .eofObject
  | fuel + 1, first, cs => do
    match ← nextKey first cs with
    | none => .ok ([], cs)
    | some cs =>
      let (key, cs) ← readString cs
      let cs ← readColon cs
      let (x, cs) ← value cs
      let (xs, cs) ← readMembers value fuel false cs
      .ok ((key, x) :: xs, cs)

/-! ### Refusing a value of the wrong type -/

/-- The error for a value that stands where `expected` should. -/
def mismatch (expected : String) (cs : List Char) : Error :=
  let wrong (found : Found) : Error := .invalidType found expected
  let word (ws rest : List Char) (found : Found) : Error :=
    match readWord ws rest with
    | .ok _ => wrong found
    | .error e => e
  let number (r : Except Error (Number × List Char)) : Error :=
    match r with
    | .ok (n, _) => wrong (.number n)
    | .error e => e
  match cs with
  | [] => .eofValue
  | c :: rest =>
    if c = 'n' then word ['u', 'l', 'l'] rest .null
    else if c = 't' then word ['r', 'u', 'e'] rest (.bool true)
    else if c = 'f' then word ['a', 'l', 's', 'e'] rest (.bool false)
    else if c = '-' then number (readNumber false rest)
    else if c.isDigit then number (readNumber true (c :: rest))
    else if c = '"' then
      match readString rest with
      | .ok (s, _) => wrong (.string s)
      | .error e => e
    else if c = '[' then wrong .sequence
    else if c = '{' then wrong .map
    else .expectedValue

/-! ### Values -/

/-- How an embedded text is read, where it is recognised at all. -/
abbrev Embedded := Option (String → Except Error Value)

/-- A string that holds an embedded text. -/
def readEmbedded (parse : String → Except Error Value) (cs : List Char) :
    Except Error (Value × List Char) := do
  match skipBlank cs with
  | [] => .error .eofValue
  | c :: rest =>
    if c = '"' then
      let (text, cs) ← readString rest
      let v ← parse text
      .ok (v, cs)
    else .error (mismatch "raw value" (c :: rest))

/-- An object behind its opening bracket. -/
def readObject (embedded : Embedded) (value : List Char → Except Error (Value × List Char))
    (cs : List Char) : Except Error (Value × List Char) := do
  let plain : Except Error (Value × List Char) := do
    let (entries, cs) ← readMembers value cs.length true cs
    let cs ← closeObject cs
    .ok (.object (Members.ofList entries), cs)
  match embedded, ← nextKey true cs with
  | some parse, some inKey =>
    let (key, inValue) ← readString inKey
    if key = embeddedKey then
      let cs ← readColon inValue
      let (v, cs) ← readEmbedded parse cs
      let cs ← closeObject cs
      .ok (v, cs)
    else plain
  | _, _ => plain

/-- Reads one value; at most `depth` arrays and objects may be open in it. -/
def readValue (embedded : Embedded) : Nat → List Char → Except Error (Value × List Char)
  | depth, cs =>
    match skipBlank cs with
    | [] => .error .eofValue
    | c :: rest =>
      if c = '"' then (readString rest).map fun (s, cs) => (.string s, cs)
      else if c = '[' then
        match depth with
        | 0 => .error .recursionLimit
        | depth + 1 => do
          let (xs, cs) ← readItems (readValue embedded depth) rest.length true rest
          let cs ← closeArray cs
          .ok (.array xs, cs)
      else if c = '{' then
        match depth with
        | 0 => .error .recursionLimit
        | depth + 1 => readObject embedded (readValue embedded depth) rest
      else if c = 'n' then (readWord ['u', 'l', 'l'] rest).map fun cs => (.null, cs)
      else if c = 't' then (readWord ['r', 'u', 'e'] rest).map fun cs => (.bool true, cs)
      else if c = 'f' then (readWord ['a', 'l', 's', 'e'] rest).map fun cs => (.bool false, cs)
      else if c = '-' then (readNumber false rest).map fun (n, cs) => (.number n, cs)
      else if c.isDigit then (readNumber true (c :: rest)).map fun (n, cs) => (.number n, cs)
      else .error .expectedValue

/-- Reads a whole text with `read` and checks that nothing follows. -/
def parseAll {α : Type} (read : List Char → Except Error (α × List Char)) (s : String) :
    Except Error α := do
  let (x, rest) ← read s.toList
  endOfText rest
  .ok x

/-- Parses a text in which texts are embedded at most `n` deep. -/
def parseWithin : Nat → String → Except Error Value
  | 0, _ => .error .eofValue
  | n + 1, s => parseAll (readValue (some (parseWithin n)) nestingLimit) s

/-- How the texts embedded in `s` are read: each is shorter than the one around it. -/
def embeddedIn (s : String) : Embedded :=
  some (parseWithin s.length)

/-- The value that a text denotes. -/
def parse (s : String) : Except Error Value :=
  parseAll (readValue (embeddedIn s) nestingLimit) s

/-- Reads an object of any members, where nothing else is expected. -/
def readMap (embedded : Embedded) (depth : Nat) (cs : List Char) :
    Except Error (Members × List Char) :=
  match skipBlank cs with
  | [] => .error .eofValue
  | c :: rest =>
    if c = '{' then
      match depth with
      | 0 => .error .recursionLimit
      | depth + 1 => do
        let (entries, cs) ← readMembers (readValue embedded depth) rest.length true rest
        let cs ← closeObject cs
        .ok (Members.ofList entries, cs)
    else .error (mismatch "a map" (c :: rest))

/-- The members of the object that a text denotes. -/
def parseMap (s : String) : Except Error Members :=
  parseAll (readMap (embeddedIn s) nestingLimit) s

/-! ### Skipping a value -/

/-- An open bracket. -/
inductive Bracket where
  | array
  | object
  deriving DecidableEq, Repr

/-- What comes after a skipped part. -/
inductive Skipped where
  /-- the value that was to be skipped is over -/
  | done (rest : List Char)
  /-- another item or member of the innermost open bracket follows -/
  | more (bracket : Bracket) (outer : List Bracket) (rest : List Char)

/-- Passes over closing brackets; `comma` tells whether a comma may follow. -/
def settle (comma : Bool) (bracket : Bracket) (outer : List Bracket) (cs : List Char) :
    Except Error Skipped :=
  match skipBlank cs with
  | [] => .error (if bracket = .array then .eofList else .eofObject)
  | c :: rest =>
    if c = ',' ∧ comma = true then .ok (.more bracket outer rest)
    else if (c = ']' ∧ bracket = .array) ∨ (c = '}' ∧ bracket = .object) then
      match outer with
      | [] => .ok (.done rest)
      | next :: outer => settle true next outer rest
    else if comma then
      .error (if bracket = .array then .expectedListComma else .expectedObjectComma)
    else .ok (.more bracket outer (c :: rest))

/-- Passes over a key and its colon. -/
def skipKey (cs : List Char) : Except Error (List Char) := do
  match skipBlank cs with
  | [] => .error .eofObject
  | c :: rest =>
    if c = '"' then
      let rest ← skipText rest
      readColon rest
    else .error .keyNotString

/-- Passes over a value inside the given open brackets, and over all that closes them. -/
def skipWithin : Nat → List Bracket → List Char → Except Error (List Char)
  | 0, _, _ => .error .eofValue
  | fuel + 1, opened, cs => do
    let behind (rest : List Char) : Except Error Skipped :=
      match opened with
      | [] => .ok (.done rest)
      | bracket :: outer => settle true bracket outer rest
    let skipped ← match skipBlank cs with
      | [] => .error .eofValue
      | c :: rest =>
        if c = 'n' then readWord ['u', 'l', 'l'] rest >>= behind
        else if c = 't' then readWord ['r', 'u', 'e'] rest >>= behind
        else if c = 'f' then readWord ['a', 'l', 's', 'e'] rest >>= behind
        else if c = '-' then skipNumber rest >>= behind
        else if c.isDigit then skipNumber (c :: rest) >>= behind
        else if c = '"' then skipText rest >>= behind
        else if c = '[' then settle false .array opened rest
        else if c = '{' then settle false .object opened rest
        else .error .expectedValue
    match skipped with
    | .done rest => .ok rest
    | .more .array outer rest => skipWithin fuel (.array :: outer) rest
    | .more .object outer rest => do
      let rest ← skipKey rest
      skipWithin fuel (.object :: outer) rest

/-- Passes over one value. -/
def skipValue (cs : List Char) : Except Error (List Char) :=
  skipWithin cs.length [] cs

end FreshTag.Json
