/-
FreshTag/Listener/Lifecycle.lean

The life of a listener.  `start` installs schema, function and triggers,
subscribes to the channel and starts the task; `close` ends the task and
removes what was installed.  If `start` fails, what it installed is removed at
once.  Either way a listener is started once and closed once.

Installing stops at the first refusal, and a trigger counts as installed only
if its creation succeeded.  Removing does not stop: a refusal is logged and the
rest is removed all the same.
-/
import FreshTag.Catalog.Filter
import FreshTag.Database.Basic
import FreshTag.Listener.Task

namespace FreshTag

open FreshTag.Catalog (Table Filter)

/-- A listener with the cache that it keeps in step. -/
structure Listener where
  catalog : Catalog
  config : Listener.Config
  cache : Cache
  state : Listener.State := .uninitialized
  /-- the tables that carry a trigger of this listener -/
  installed : List Table := []
  task : Option Listener.Task := none

namespace Listener

/-- Steps of a listener that ask a database. -/
abbrev Step (m : Type → Type) (α : Type) := StateT Listener m α

/-- Steps of a listener that may fail; what was done before stays done. -/
abbrev Attempt (m : Type → Type) (α : Type) := ExceptT Error (StateT Listener m) α

variable {m : Type → Type} [Monad m]

/-- Appends a record to the log. -/
def log (level : Log.Level) (message : String) (fields : List (String × Json.Value) := []) :
    Step m Unit :=
  modify fun l =>
    { l with cache :=
      { l.cache with telemetry := l.cache.telemetry.record .listener level message fields } }

/-- Moves on to a state. -/
def enter (state : State) : Step m Unit :=
  modify fun l => { l with state }

/-! ### Installing -/

/-- Runs a command; `action` names it if it is refused. -/
def command (db : Database m) (action : String) (c : Database.Command) : Attempt m Unit := do
  match ← (db.run c : m (Except String Unit)) with
  | .ok () => return ()
  | .error cause => throw (.command action cause)

/-- Gives a table its trigger, in place of one that it may have already. -/
def installTrigger (db : Database m) (schema : String) (t : Table) : Attempt m Unit := do
  command db ("drop trigger on " ++ t.id) (.dropTrigger (Database.triggerOf t))
  command db ("create trigger on " ++ t.id) (.createTrigger t schema)
  log (m := m) .debug "trigger installed" [Log.field "table" t.id]
  modify fun l => { l with installed := l.installed ++ [t] }

/-- Gives a trigger to every table of the list that the filter admits. -/
def installTriggers (db : Database m) (schema : String) (filter : Filter) :
    List Table → Attempt m Unit
  | [] => return ()
  | t :: tables => do
    if filter.admits t then
      installTrigger db schema t
    else
      log (m := m) .debug "table excluded" [Log.field "table" t.id]
    installTriggers db schema filter tables

/-- Installs everything and subscribes to the channel. -/
def install (db : Database m) (filter : Filter) : Attempt m Unit := do
  let l ← get
  let schema := l.config.schema
  command db ("create schema " ++ schema) (.createSchema schema)
  command db "create notify function" (.createFunction schema l.config.chunk)
  match l.catalog.tables with
  | .error cause => throw (.catalog cause)
  | .ok tables => installTriggers db schema filter tables
  match ← (db.listen Database.channel : m (Except String Unit)) with
  | .ok () => return ()
  | .error cause => throw (.connection cause)

/-! ### Removing -/

/-- Takes the triggers off the tables of the list. -/
def dropTriggers (db : Database m) : List Table → Step m Unit
  | [] => return ()
  | t :: tables => do
    match ← (db.run (.dropTrigger (Database.triggerOf t)) : m (Except String Unit)) with
    | .ok () => pure ()
    | .error cause =>
      log .warn "Failed to drop notify trigger" [Log.field "table" t.id, Log.field "error" cause]
    dropTriggers db tables

/-- Removes the triggers and then the schema. -/
def uninstall (db : Database m) : Step m Unit := do
  let l ← get
  set { l with installed := [] }
  dropTriggers db l.installed
  match ← (db.run (.dropSchema l.config.schema) : m (Except String Unit)) with
  | .ok () => pure ()
  | .error cause =>
    log .warn "Failed to drop notification schema"
      [Log.field "schema" l.config.schema, Log.field "error" cause]

/-! ### The task -/

/-- Lets the task wake up to everything in its inbox. -/
def settle (l : Listener) : Listener :=
  match l.task with
  | some (.waiting pending inbox) =>
    let (result, s) := run l.catalog inbox { pending, cache := l.cache }
    let task := match result with
      | none => .waiting s.pending []
      | some result => .ended result
    { l with cache := s.cache, task := some task }
  | _ => l

/-- Puts something into the inbox of the task; without a waiting task it is lost. -/
def deliver (w : Wake) (l : Listener) : Listener :=
  match l.task with
  | some (.waiting pending inbox) => { l with task := some (.waiting pending (inbox ++ [w])) }
  | _ => l

/-- What a task wakes up to when its connection is gone.  It subscribes again at once; if that
succeeds, messages may be missing all the same. -/
def reconnect (db : Database m) : m Wake := do
  match ← db.listenAgain Database.channel with
  | .ok () => return .disconnected
  | .error cause => return .failed cause

/-- The task is waiting. -/
def isWaiting (l : Listener) : Bool :=
  match l.task with
  | some (.waiting ..) => true
  | _ => false

/-- The result of a task that has ended, which is handed out once; a listener without a task has
nothing to wait for. -/
def takeResult (l : Listener) : Option Result × Listener :=
  let l := l.settle
  match l.task with
  | none => (some (.ok ()), l)
  | some (.waiting ..) => (none, l)
  | some (.ended result) => (some result, { l with task := none })

/-- Tells the task to end, which it does before it wakes up to anything else. -/
def cancel (l : Listener) : Listener :=
  match l.task with
  | some (.waiting pending inbox) =>
    { l with task := some (.waiting pending (.cancelled :: inbox)) }
  | _ => l

/-! ### Operations -/

/-- Installs on the tables that the filter admits, subscribes and starts the task. -/
def start (db : Database m) (filter : Filter) : Step m (Except Error Unit) := do
  let l ← get
  if l.state ≠ .uninitialized then
    return .error (.invalidState "initialize" l.state)
  enter .initializing
  match ← (install db filter).run with
  | .ok () =>
    modify fun l => { l with task := some (.waiting {} []), state := .listening }
    let l ← get
    log .info "Change listener started"
      [Log.field "channel" Database.channel, Log.field "schema" l.config.schema,
       Log.countField "tables" l.installed.length]
    return .ok ()
  | .error e =>
    log .error "Change listener initialization failed; removing installed objects"
      [Log.field "error" e.message]
    uninstall db
    enter .closed
    return .error e

/-- Ends the task and removes what was installed; nothing happens unless the listener is
listening. -/
def close (db : Database m) : Step m Unit := do
  let l ← get
  if l.state ≠ .listening then
    log .debug "close ignored" [Log.field "state" l.state.name]
  else
    enter .closing
    let (result, l) := (← get).cancel.takeResult
    set l
    match result with
    | some (.error e) =>
      log .warn "Listener task had failed before close" [Log.field "error" e.message]
    | _ => pure ()
    uninstall db
    enter .closed
    log .info "Change listener closed"

end Listener

end FreshTag
