/-
FreshTag/Change/Notification.lean

The message that the trigger publishes for a page of a changed row.  It is a
JSON record of eight fields; a version is a text, a whole number, `null` or
absent, and a number stands for its digits.

`text` is the compact JSON text in the order of the fields, and `parse` reads
any JSON text of the record.
-/
import FreshTag.Change.Action
import FreshTag.Json.Printer
import FreshTag.Json.Record

namespace FreshTag.Change

open FreshTag.Json

/-- One page of a change of a row. -/
structure Notification where
  /-- the identifier of the table, quoted where necessary -/
  id : String
  schema : String
  table : String
  action : Action
  /-- the version that ended -/
  oldVersion : Option String
  /-- the version that began -/
  newVersion : Option String
  /-- a digest that all pages of one change share -/
  md5 : String
  /-- page count, page number and the page's part of the row, with colons between them -/
  rawData : String
  deriving DecidableEq, Repr, Inhabited

namespace Notification

/-- A version or `null`. -/
def printVersion : Option String → List Char
  | some v => printString v
  | none => ['n', 'u', 'l', 'l']

/-- The JSON text of a notification. -/
def print (n : Notification) : List Char :=
  braced
    [printMember "id" (printString n.id),
     printMember "schema" (printString n.schema),
     printMember "table" (printString n.table),
     printMember "action" (printString n.action.name),
     printMember "old_xmin" (printVersion n.oldVersion),
     printMember "new_xmin" (printVersion n.newVersion),
     printMember "md5" (printString n.md5),
     printMember "raw_data" (printString n.rawData)]

/-- The JSON text of a notification. -/
def text (n : Notification) : String :=
  String.ofList n.print

/-- What was read of a notification so far. -/
structure Draft where
  id : Option String := none
  schema : Option String := none
  table : Option String := none
  action : Option Action := none
  oldVersion : Option (Option String) := none
  newVersion : Option (Option String) := none
  md5 : Option String := none
  rawData : Option String := none

/-- The version that a value denotes. -/
def versionOf : Value → Except Json.Error String
  | .string s => .ok s
  | .number (.natural n) => .ok (String.ofList (Nat.toDigits 10 n))
  | _ => .error (.noVariant "Xid")

/-- Reads a version. -/
def readVersion (depth : Nat) (cs : List Char) : Except Json.Error (Option String × List Char) :=
  readOption (fun cs => do
    let (v, cs) ← readValue none depth cs
    let version ← versionOf v
    .ok (version, cs)) cs

/-- Reads an action. -/
def readAction (depth : Nat) (cs : List Char) : Except Json.Error (Action × List Char) := do
  let known := Action.all.map Action.name
  let (name, cs) ← readVariant known depth cs
  match Action.ofName? name with
  | some action => .ok (action, cs)
  | none => .error (.unknownVariant name known)

/-- The fields of a notification. -/
def fields (depth : Nat) : List (RecordField Draft) := [
  { name := "id", optional := false, filled := (·.id.isSome),
    read := fun d cs => (readTextValue cs).map fun (s, cs) => ({ d with id := some s }, cs) },
  { name := "schema", optional := false, filled := (·.schema.isSome),
    read := fun d cs => (readTextValue cs).map fun (s, cs) => ({ d with schema := some s }, cs) },
  { name := "table", optional := false, filled := (·.table.isSome),
    read := fun d cs => (readTextValue cs).map fun (s, cs) => ({ d with table := some s }, cs) },
  { name := "action", optional := false, filled := (·.action.isSome),
    read := fun d cs =>
      (readAction depth cs).map fun (a, cs) => ({ d with action := some a }, cs) },
  { name := "old_xmin", optional := true, filled := (·.oldVersion.isSome),
    read := fun d cs =>
      (readVersion depth cs).map fun (v, cs) => ({ d with oldVersion := some v }, cs) },
  { name := "new_xmin", optional := true, filled := (·.newVersion.isSome),
    read := fun d cs =>
      (readVersion depth cs).map fun (v, cs) => ({ d with newVersion := some v }, cs) },
  { name := "md5", optional := false, filled := (·.md5.isSome),
    read := fun d cs => (readTextValue cs).map fun (s, cs) => ({ d with md5 := some s }, cs) },
  { name := "raw_data", optional := false, filled := (·.rawData.isSome),
    read := fun d cs =>
      (readTextValue cs).map fun (s, cs) => ({ d with rawData := some s }, cs) }]

/-- The notification of a complete draft. -/
def Draft.notification (d : Draft) : Notification where
  id := d.id.getD ""
  schema := d.schema.getD ""
  table := d.table.getD ""
  action := d.action.getD .insert
  oldVersion := d.oldVersion.getD none
  newVersion := d.newVersion.getD none
  md5 := d.md5.getD ""
  rawData := d.rawData.getD ""

/-- The notification that a JSON text denotes. -/
def parse (s : String) : Except Json.Error Notification :=
  (parseAll (Record.read "EventNotification" fields {} nestingLimit) s).map Draft.notification

end Notification

end FreshTag.Change
