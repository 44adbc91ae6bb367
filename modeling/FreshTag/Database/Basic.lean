/-
FreshTag/Database/Basic.lean

What the service asks of a database: its tables, the triggers that are bound to
the trigger function of a schema, commands that change schemas, functions and
triggers, and the messages of a channel.  Every request may be refused, with a
cause in the words of the database.

The answers live in a monad.  In a program they come from a server; a script
(`Database.scripted`) lays them down beforehand and keeps what was asked.
-/
import FreshTag.Catalog.Lookup
import FreshTag.Database.Statements

namespace FreshTag

open FreshTag.Catalog (Table)

namespace Database

/-- A trigger with its table, both written as identifiers. -/
structure Trigger where
  table : String
  name : String
  deriving DecidableEq, Repr, Inhabited

/-- A command that changes schemas, functions or triggers. -/
inductive Command where
  | createSchema (schema : String)
  /-- creates the trigger function that cuts rows into pages of `chunk` characters -/
  | createFunction (schema : String) (chunk : Nat)
  /-- creates the trigger of a table, bound to the function in the schema -/
  | createTrigger (table : Table) (schema : String)
  | dropTrigger (trigger : Trigger)
  | dropSchema (schema : String)

/-- The statement of a command. -/
def Command.text : Command → String
  | .createSchema schema => Database.createSchema schema
  | .createFunction schema chunk => Database.createFunction schema chunk
  | .createTrigger table schema => Database.createTrigger table schema
  | .dropTrigger trigger => dropNamedTrigger trigger.table trigger.name
  | .dropSchema schema => Database.dropSchema schema

/-- The trigger that a listener creates on a table. -/
def triggerOf (t : Table) : Trigger :=
  { table := t.id, name := triggerName t }

theorem text_dropTrigger (t : Table) :
    (Command.dropTrigger (triggerOf t)).text = dropTrigger t := rfl

end Database

/-- A database, by its answers. -/
structure Database (m : Type → Type) where
  /-- the rows of the catalog query -/
  tables : m (Except String (List Catalog.Row))
  /-- the triggers that are bound to the trigger function of a schema -/
  triggers (schema : String) : m (Except String (List Database.Trigger))
  /-- runs a command -/
  run (command : Database.Command) : m (Except String Unit)
  /-- subscribes to a channel -/
  listen (channel : String) : m (Except String Unit)
  /-- subscribes to a channel again, on a new connection -/
  listenAgain (channel : String) : m (Except String Unit)

end FreshTag
