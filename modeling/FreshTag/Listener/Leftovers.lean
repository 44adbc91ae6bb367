/-
FreshTag/Listener/Leftovers.lean

Removing what a listener left behind that never came to close: every trigger
that is bound to the trigger function of its schema, and then the schema.  The
first refusal ends the removal.
-/
import FreshTag.Database.Basic
import FreshTag.Listener.Basic
import FreshTag.Telemetry.Basic

namespace FreshTag.Listener

variable {m : Type → Type} [Monad m]

/-- Steps that ask a database, report and may fail. -/
abbrev Removal (m : Type → Type) (α : Type) := ExceptT Error (StateT Telemetry m) α

/-- Drops the triggers of the list. -/
def dropLeftovers (db : Database m) : List Database.Trigger → Removal m Unit
  | [] => return ()
  | trigger :: rest => do
    match ← (db.run (.dropTrigger trigger) : m (Except String Unit)) with
    | .error cause =>
      throw (.command ("drop trigger " ++ trigger.name ++ " on " ++ trigger.table) cause)
    | .ok () => pure ()
    modify fun t => t.record .listener .info "Dropped leftover notify trigger"
      [Log.field "table" trigger.table, Log.field "trigger" trigger.name]
    dropLeftovers db rest

/-- Removes what is left in a schema; answers how many triggers were dropped. -/
def removeLeftovers (db : Database m) (schema : String) : Removal m Nat := do
  match ← (db.triggers schema : m (Except String (List Database.Trigger))) with
  | .error cause => throw (.command "list notify triggers" cause)
  | .ok triggers =>
    dropLeftovers db triggers
    match ← (db.run (.dropSchema schema) : m (Except String Unit)) with
    | .error cause => throw (.command ("drop schema " ++ schema) cause)
    | .ok () => return triggers.length

end FreshTag.Listener
