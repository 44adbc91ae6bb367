/-
FreshTag/Change/Reassembly.lean

Joining the pages of changed rows.  The pages of one change share a digest and
arrive in order; pages of other changes may come between them.  A row of one
page is complete at once and leaves pending rows alone.  Otherwise the page is
appended to what is pending under its digest, and the last page completes it.

The event that results carries what its first page said of the change.
-/
import FreshTag.Change.Notification
import FreshTag.Change.Page
import FreshTag.Dict

namespace FreshTag.Change

/-- A change of a row, complete or with pages missing. -/
structure Event where
  id : String
  schema : String
  table : String
  action : Action
  oldVersion : Option String
  newVersion : Option String
  md5 : String
  /-- the row as JSON text -/
  row : String
  deriving DecidableEq, Repr, Inhabited

/-- The change that a notification announces, with a row. -/
def Event.ofNotification (n : Notification) (row : String) : Event where
  id := n.id
  schema := n.schema
  table := n.table
  action := n.action
  oldVersion := n.oldVersion
  newVersion := n.newVersion
  md5 := n.md5
  row

/-- Changes of which pages are missing, by digest. -/
abbrev Pending := Dict Event

namespace Pending

/-- The change with one more page. -/
def extended (pending : Pending) (n : Notification) (p : Page) : Event :=
  match pending.get? n.md5 with
  | some e => { e with row := e.row ++ p.chunk }
  | none => .ofNotification n p.chunk

/-- Takes a page; an event results if the page completes one. -/
def push (pending : Pending) (n : Notification) (p : Page) : Option Event × Pending :=
  if p.isSingle then (some (.ofNotification n p.chunk), pending)
  else
    let e := pending.extended n p
    if p.isLast then (some e, pending.erase n.md5) else (none, pending.set n.md5 e)

end Pending

end FreshTag.Change
