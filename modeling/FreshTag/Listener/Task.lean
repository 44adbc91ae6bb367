/-
FreshTag/Listener/Task.lean

The task of a listener.  It waits, and what it wakes up to decides what it
does: it goes on after a timeout, hands a payload to the processor, and ends on
a cancellation, when the connection is gone or fails, or when the payload was
not published by the trigger.

`run_append` says that a task that goes on after one part of a script meets the
rest of it in the state that it reached.
-/
import FreshTag.Change.Processor
import FreshTag.Listener.Basic

namespace FreshTag.Listener

open FreshTag.Change (Processor)

/-- What a waiting task wakes up to. -/
inductive Wake where
  /-- nothing happened for as long as the task waits -/
  | elapsed
  /-- a payload arrived; `now` is the date -/
  | notification (payload now : String)
  /-- the connection is gone, and there is a new one -/
  | disconnected
  /-- the connection failed, or a new one did -/
  | failed (cause : String)
  /-- the task is told to end -/
  | cancelled
  deriving DecidableEq, Repr

/-- How a task ended. -/
abbrev Result := Except Error Unit

/-- The processor with one more record in its log. -/
def recorded (s : Processor) (level : Log.Level) (message : String)
    (fields : List (String × Json.Value) := []) : Processor :=
  { s with cache :=
    { s.cache with telemetry := s.cache.telemetry.record .listener level message fields } }

/-- What the task does when it wakes up: a result if it ends. -/
def react (catalog : Catalog) (w : Wake) (s : Processor) : Option Result × Processor :=
  match w with
  | .elapsed => (none, s)
  | .notification payload now =>
    match s.handle catalog now payload with
    | (.ok _, s) => (none, s)
    | (.error e, s) =>
      (some (.error (.payload e.cause)),
        recorded s .error "Stopping listener on incompatible notification"
          [Log.field "error" e.cause])
  | .disconnected =>
    (some (.error .connectionLost),
      recorded s .error "Notification connection dropped; changes in the gap cannot be replayed")
  | .failed cause =>
    (some (.error (.connection cause)),
      recorded s .error "Notification connection failed" [Log.field "error" cause])
  | .cancelled => (some (.ok ()), recorded s .debug "listener task cancelled")

/-- Runs the task through a script; no result means that it waits on. -/
def run (catalog : Catalog) : List Wake → Processor → Option Result × Processor
  | [], s => (none, s)
  | w :: script, s =>
    match react catalog w s with
    | (none, s) => run catalog script s
    | (some result, s) => (some result, s)

theorem run_append (catalog : Catalog) (ws script : List Wake) (s : Processor) :
    run catalog (ws ++ script) s =
      match run catalog ws s with
      | (none, s) => run catalog script s
      | (some result, s) => (some result, s) := by
  induction ws generalizing s with
  | nil => rfl
  | cons w ws ih =>
    simp only [List.cons_append, run]
    cases react catalog w s with
    | mk result s' => cases result with
      | none => exact ih s'
      | some r => rfl

/-- The task that a listener has started. -/
inductive Task where
  /-- waiting, with changes that are not complete and with what it has not woken up to yet -/
  | waiting (pending : Change.Pending) (inbox : List Wake)
  | ended (result : Result)

end FreshTag.Listener
