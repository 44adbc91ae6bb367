/-
FreshTag/Service/Run.lean

Running the service.  While it serves, it takes signals one by one; it stops
when it is told to, and when the task of its listener has ended.  Without a
listener only the first of these stops it.

Whatever stops it, the listener is closed, so that nothing it installed stays
behind.
-/
import FreshTag.Listener.Leftovers
import FreshTag.Listener.Lifecycle
import FreshTag.Service.Startup

namespace FreshTag.Service

/-- What reaches a serving program from outside. -/
inductive Signal where
  /-- it is told to stop -/
  | terminate
  /-- something happens to its notification connection -/
  | wake (w : Listener.Wake)

/-- A program that serves, with a listener or without. -/
inductive Running where
  | listening (l : Listener)
  | passive (t : Telemetry)

variable {m : Type → Type} [Monad m]

/-- Starts to serve. -/
def startServing (s : Surroundings m) (settings : Settings) : Setup m Running := do
  let context ← prepare s settings
  if !settings.listenerEnabled then
    log (m := m) .serving .info "Change listener disabled; cached etags follow reads only"
    return .passive (← get)
  else
    let l : Listener :=
      { catalog := context.catalog, config := context.listener
        cache := { context.cache with telemetry := ← get } }
    let (result, l) ← (Listener.start s.database settings.filter l :
      m (Except Listener.Error Unit × Listener))
    set l.cache.telemetry
    match result with
    | .error cause => throw (.listener cause)
    | .ok () => return .listening l

namespace Running

/-- Metrics and log. -/
def telemetry : Running → Telemetry
  | .listening l => l.cache.telemetry
  | .passive t => t

/-- Appends a record to the log. -/
def recorded (r : Running) (level : Log.Level) (message : String) : Running :=
  match r with
  | .listening l =>
    .listening { l with cache :=
      { l.cache with telemetry := l.cache.telemetry.record .serving level message } }
  | .passive t => .passive (t.record .serving level message)

/-- Takes a signal; true if the program stops now. -/
def take (signal : Signal) (r : Running) : Running × Bool :=
  match signal, r with
  | .terminate, r => (r.recorded .info "shutdown signal received", true)
  | .wake w, .listening l =>
    let l := (l.deliver w).settle
    (.listening l, !l.isWaiting)
  | .wake _, .passive t => (.passive t, false)

/-- Takes signals until the program stops; the end of the signals stops it. -/
def takeAll : List Signal → Running → Running
  | [], r => (r.take .terminate).1
  | signal :: signals, r =>
    match r.take signal with
    | (r, true) => r
    | (r, false) => takeAll signals r

/-- Closes the listener; an error results if its task has failed. -/
def stop (db : Database m) (r : Running) : m (Except Error Unit × Telemetry) := do
  match r with
  | .passive t => return (.ok (), t)
  | .listening l =>
    let (result, l) := l.takeResult
    let ((), l) ← Listener.close db l
    let (size, cache) := Cache.size.run l.cache
    let t := cache.telemetry.record .serving .info "Stopped" [Log.countField "cached_etags" size]
    match result with
    | some (.error cause) => return (.error (.listener cause), t)
    | _ => return (.ok (), t)

end Running

/-- Stops a program that serves, and fails with the error of its task. -/
def finish (s : Surroundings m) (r : Running) : Setup m Unit := do
  let (result, t) ← (r.stop s.database : m (Except Error Unit × Telemetry))
  set t
  match result with
  | .ok () => return ()
  | .error e => throw e

/-- Serves from start to stop. -/
def serve (s : Surroundings m) (settings : Settings) (signals : List Signal) : Setup m Unit := do
  let running ← startServing s settings
  finish s (running.takeAll signals)

/-- Removes what a broken-off run left behind. -/
def cleanUp (s : Surroundings m) (settings : Settings) : Setup m Unit := do
  connect s settings.database
  let schema := settings.listener.schema
  let (result, t) ← (Listener.removeLeftovers s.database schema (← get) :
    m (Except Listener.Error Nat × Telemetry))
  set t
  match result with
  | .error cause => throw (.listener cause)
  | .ok dropped =>
    log (m := m) .cleaning .info "Removed notification objects"
      [Log.countField "triggers" dropped, Log.field "schema" schema]

/-- The exit code of a program that cannot set up its log; it does nothing else. -/
def noLogCode : Nat := 101

/-- Runs steps from nothing; an error is reported.  The exit code and the log result. -/
def exitCode (steps : Setup m Unit) : m (Nat × Telemetry) := do
  let (result, t) ← (steps.run {} : m (Except Error Unit × Telemetry))
  match result with
  | .ok () => return (0, t)
  | .error e =>
    return (1, t.record .failure .error "application error" [Log.field "error" e.message])

end FreshTag.Service
