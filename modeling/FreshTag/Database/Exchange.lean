/-
FreshTag/Database/Exchange.lean

Talking to a database through a pair of text streams.  A request is one line, a
JSON object with the statement and its parameter; the reply is one line with
`rows`, or with `error` and a cause.  Between replies, lines with a `payload`
are messages of the channel; they carry the second at which they arrived.  A
line with `disconnected` says that the connection of the channel is gone.
-/
import FreshTag.Database.Script
import FreshTag.Json.Printer
import FreshTag.Json.Reader

namespace FreshTag.Database

open FreshTag.Json (Value Members)

/-- The parameter of a request. -/
def Request.parameter? : Request → Option String
  | .triggers schema => some schema
  | _ => none

/-- The line of a request. -/
def Request.line (r : Request) : String :=
  (Value.object (Members.ofList
    [("statement", .string r.text), ("parameter", Value.ofString? r.parameter?)])).text

/-- A line that comes from the database. -/
inductive Incoming where
  | rows (rows : List Value)
  | refused (cause : String)
  /-- a message of the channel, and its second since the start of 1970 -/
  | payload (payload : String) (second : Int)
  /-- the connection of the channel is gone -/
  | disconnected

/-- What a line says. -/
def Incoming.ofLine? (line : String) : Option Incoming := do
  let v ← (Json.parse line).toOption
  match v.get? "rows", v.get? "error", v.get? "payload" with
  | some items, _, _ => some (.rows (← items.items?))
  | none, some cause, _ => some (.refused (← cause.string?))
  | none, none, some message =>
    some (.payload (← message.string?) (((v.get? "second").bind Value.integer?).getD 0))
  | none, none, none => (v.get? "disconnected").map fun _ => .disconnected

/-- The texts of an array. -/
def textsOf (v : Value) : Option (List String) := do
  (← v.items?).mapM Value.string?

/-- A row of the catalog query. -/
def catalogRow? (v : Value) : Option Catalog.Row := do
  match ← v.items? with
  | [id, schema, name, idColumn, columnNames, columnTypes] =>
    some { id := ← id.string?, schema := ← schema.string?, name := ← name.string?,
           idColumn := idColumn.string?, columnNames := ← textsOf columnNames,
           columnTypes := ← textsOf columnTypes }
  | _ => none

/-- A row of the query for triggers. -/
def trigger? (v : Value) : Option Trigger := do
  match ← textsOf v with
  | [table, name] => some { table, name }
  | _ => none

/-- Reads the rows of a reply. -/
def readRows {α : Type} (row? : Value → Option α) : Except String (List Value) →
    Except String (List α)
  | .error cause => .error cause
  | .ok items =>
    match items.mapM row? with
    | some read => .ok read
    | none => .error "a row is not of the expected form"

/-- A database by its replies, `ask` being how a request is answered. -/
def ofReplies {m : Type → Type} [Monad m] (ask : Request → m (Except String (List Value))) :
    Database m where
  tables := do return readRows catalogRow? (← ask .tables)
  triggers schema := do return readRows trigger? (← ask (.triggers schema))
  run command := do return (← ask (.run command)).map fun _ => ()
  listen channel := do return (← ask (.listen channel)).map fun _ => ()
  listenAgain channel := do return (← ask (.listenAgain channel)).map fun _ => ()

end FreshTag.Database
