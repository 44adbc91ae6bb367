/-
FreshTag/Telemetry/Directive.lean

Directives say which records are shown.  A full one reads
`path[span{field=value}]=level`.  It is for the parts of the service whose path
begins so, inside a span of that name, and for records with that field, and it
shows them up to the level.  Path, brackets and level may be missing, but not
all of them; without a level everything is shown, and a level alone is for all
records.

The brackets and the sign before the level are found with the space around the
directive left out, but their places are then counted from its very start.  So
space in front of a directive shifts what is read between them, and space
behind it belongs to its last word.  A place that falls inside a character is
worse than a directive without form: it spoils the whole list.
-/
import FreshTag.Settings.Basic
import FreshTag.Text.Bytes
import FreshTag.Text.Pattern.Support

namespace FreshTag.Log

/-- What a directive asks of a field. -/
structure FieldTest where
  name : String
  /-- the field must have a certain value -/
  hasValue : Bool
  deriving DecidableEq, Repr

/-- A value that a field can be compared with: a number, or else a pattern. -/
def isFieldValue (cs : List Char) : Bool :=
  (Number.Extended.ofText? (String.ofList cs)).isSome || Text.isPattern cs

/-- The test that a text between braces denotes; what stands behind a second sign is ignored. -/
def FieldTest.ofChars? (cs : List Char) : Option FieldTest :=
  match Text.pieces '=' cs with
  | [] | [[]] => none
  | [name] => some { name := String.ofList name, hasValue := false }
  | name :: value :: _ =>
    if isFieldValue value then some { name := String.ofList name, hasValue := true } else none

/-- A directive: what it asks of a record, and up to which level it shows it. -/
structure Directive where
  path : Option String := none
  span : Option String := none
  field : Option FieldTest := none
  threshold : Threshold := some .trace
  deriving DecidableEq, Repr

namespace Directive

/-- Why a text is no directive. -/
inductive Fault where
  /-- it does not have the form of one -/
  | malformed
  /-- a place at which it is cut falls inside a character -/
  | insideCharacter
  deriving DecidableEq, Repr

/-- A value that must be there, or else there is a fault. -/
def orFault {α : Type} (fault : Fault) : Option α → Except Fault α
  | some x => .ok x
  | none => .error fault

/-! ### Reading -/

/-- The character may stand first in a path or a level. -/
def isFirst (c : Char) : Bool :=
  c == '-' || c == ':' || c == '_' || Text.isAlphanumeric c

/-- The bytes before the first mark, the mark, and what follows it. -/
def findMark (isMark : Char → Bool) : List Char → Option (Nat × Char × List Char)
  | [] => none
  | c :: cs =>
    if isMark c then some (0, c, cs)
    else (findMark isMark cs).map fun (n, mark, rest) => (c.utf8Size + n, mark, rest)

/-- The text between two places. -/
def cut (whole : List Char) (i j : Nat) : Except Fault (List Char) :=
  orFault .insideCharacter (Text.between? i j whole)

/-- What a level shows, or a level that is missing. -/
def thresholdOf? (cs : List Char) : Option Threshold :=
  if cs = [] then some (some .trace) else Settings.threshold? (String.ofList cs)

/-- The directive without marks: a level, or else a path. -/
def ofWord (cs : List Char) : Directive :=
  match thresholdOf? cs with
  | some threshold => { threshold }
  | none => { path := some (String.ofList cs) }

/-- A directive up to the sign before its level, with the level at `place`. -/
def readLevel (whole : List Char) (place : Nat) (d : Directive) : Except Fault Directive := do
  let level ← orFault .insideCharacter (Text.dropBytes? place whole)
  let threshold ← orFault .malformed (thresholdOf? level)
  return { d with threshold }

/-- A directive up to its closing bracket, with `cs` at `place`. -/
def readEnd (whole : List Char) (place : Nat) (d : Directive) (cs : List Char) :
    Except Fault Directive :=
  match cs with
  | [] => .ok d
  | '=' :: _ => readLevel whole (place + 1) d
  | _ => .error .malformed

/-- A directive up to the opening brace, with `cs` at `place`. -/
def readField (whole : List Char) (place : Nat) (d : Directive) (cs : List Char) :
    Except Fault Directive := do
  let (n, _, rest) ← orFault .malformed (findMark (· == '}') cs)
  let test ← orFault .malformed (FieldTest.ofChars? (← cut whole place (place + n)))
  match rest with
  | ']' :: rest => readEnd whole (place + n + 2) { d with field := some test } rest
  | _ => .error .malformed

/-- A directive up to the opening bracket, with `cs` at `place`. -/
def readSpan (whole : List Char) (place : Nat) (d : Directive) (cs : List Char) :
    Except Fault Directive := do
  let (n, mark, rest) ← orFault .malformed (findMark (fun c => c == ']' || c == '{') cs)
  let name ← cut whole place (place + n)
  let named : Directive := { d with span := some (String.ofList name) }
  if mark = ']' then readEnd whole (place + n + 1) named rest
  else readField whole (place + n + 1) (if name = [] then d else named) rest

/-- The directive that a text denotes. -/
def read (whole : List Char) : Except Fault Directive :=
  match Text.trimChars whole with
  | [] => .error .malformed
  | '[' :: cs => readSpan whole 1 {} cs
  | c :: cs =>
    if !isFirst c then .error .malformed
    else match findMark (fun c => c == '=' || c == '[') (c :: cs) with
      | none => .ok (ofWord whole)
      | some (n, mark, rest) => do
        let path ← cut whole 0 n
        let d : Directive := { path := some (String.ofList path) }
        if mark = '=' then readLevel whole (n + 1) d else readSpan whole (n + 1) d rest

/-- The directives of several texts; one without form is passed over. -/
def readAll : List (List Char) → Option (List Directive)
  | [] => some []
  | whole :: rest =>
    match read whole with
    | .ok d => (readAll rest).map (d :: ·)
    | .error .malformed => readAll rest
    | .error .insideCharacter => none

/-- The directives between the commas of a text. -/
def list? (s : String) : Option (List Directive) :=
  readAll (Text.pieces ',' s.toList)

@[simp] theorem list?_empty : list? "" = some [] := by
  have h : readAll [[]] = some [] := rfl
  simp [list?, Text.pieces, h]

end Directive

end FreshTag.Log
