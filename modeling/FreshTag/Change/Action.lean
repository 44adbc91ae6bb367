/-
FreshTag/Change/Action.lean

The three things that can happen to a row.  Updates and deletions end a row
version, insertions and updates begin one.
-/

namespace FreshTag.Change

/-- What happened to a row. -/
inductive Action where
  | insert
  | update
  | delete
  deriving DecidableEq, Repr, Inhabited

namespace Action

/-- All actions, in the order in which messages list them. -/
def all : List Action := [.insert, .update, .delete]

/-- The name of an action in messages. -/
def name : Action → String
  | .insert => "INSERT"
  | .update => "UPDATE"
  | .delete => "DELETE"

/-- The action with exactly this name. -/
def ofName? (s : String) : Option Action :=
  all.find? (·.name = s)

/-- A row version ends. -/
def endsVersion : Action → Bool
  | .update | .delete => true
  | .insert => false

/-- A row version begins. -/
def beginsVersion : Action → Bool
  | .insert | .update => true
  | .delete => false

end Action

end FreshTag.Change
