/-
FreshTag/Listener/Basic.lean

A change listener: its states, its settings and what can go wrong with it.
-/
import FreshTag.Catalog.Lookup

namespace FreshTag

/-- Where a listener is in its life. -/
inductive Listener.State where
  | uninitialized
  | initializing
  | listening
  | closing
  | closed
  deriving DecidableEq, Repr, Inhabited

namespace Listener

namespace State

/-- The name of a state. -/
def name : State → String
  | .uninitialized => "uninitialized"
  | .initializing => "initializing"
  | .listening => "listening"
  | .closing => "closing"
  | .closed => "closed"

/-- The states in their order. -/
def all : List State := [.uninitialized, .initializing, .listening, .closing, .closed]

theorem mem_all (s : State) : s ∈ all := by
  cases s <;> decide

end State

/-- Why an operation of a listener failed, or why its task ended. -/
inductive Error where
  /-- the operation does not apply to a listener in this state -/
  | invalidState (operation : String) (state : State)
  /-- the database refused a command -/
  | command (action cause : String)
  /-- the notification connection could not be made, or failed -/
  | connection (cause : String)
  /-- the notification connection ended -/
  | connectionLost
  /-- a payload that the trigger did not publish -/
  | payload (cause : String)
  | catalog (cause : Catalog.QueryError)
  /-- the task itself broke off -/
  | task (cause : String)
  deriving DecidableEq, Repr

/-- The wording of a reason. -/
def Error.message : Error → String
  | .invalidState operation state => "cannot " ++ operation ++ " a listener that is " ++ state.name
  | .command action cause => "failed to " ++ action ++ ": " ++ cause
  | .connection cause => "notification connection failed: " ++ cause
  | .connectionLost => "notification connection was lost; changes may have been missed"
  | .payload cause => "incompatible notification payload: " ++ cause
  | .catalog cause => cause.message
  | .task cause => "listener task ended abnormally: " ++ cause

/-- The settings of a listener. -/
structure Config where
  /-- the schema of the trigger function, dropped with all it holds at the end -/
  schema : String
  /-- the longest wait for a notification -/
  waitMilliseconds : Nat
  /-- characters of a row per page -/
  chunk : Nat
  deriving DecidableEq, Repr, Inhabited

end Listener

end FreshTag
