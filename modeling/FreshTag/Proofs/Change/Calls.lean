/-
FreshTag/Proofs/Change/Calls.lean

The two kinds of callers that write to a cache: a handler that remembers a
served feature, and a listener that applies a completed change.  As programs
they are lists of commands that others may come between; run from beginning to
end they are the two operations (`Call.run_remember`, `Call.run_apply`).
-/
import FreshTag.Proofs.Cache.Programs
import FreshTag.Proofs.Change.Application

namespace FreshTag.Change

open Cache (Program)

/-! ### Applying a change as a program -/

namespace Programs

/-- Appends a record to the log. -/
def log (source : Log.Source) (level : Log.Level) (message : String)
    (fields : List (String × Json.Value)) : Program Unit :=
  .report (·.record source level message fields) (.done ())

/-- A warning about a table. -/
def warnOf (table message : String) (fields : List (String × Json.Value)) : Program Unit :=
  log .changes .warn message (Log.field "table" table :: fields)

/-- A warning about a key that the cache failed on. -/
def warnOfKey (key : String) (cause : Cache.Error) (message : String) : Program Unit :=
  log .changes .warn message [Log.field "key" key, Log.field "error" cause.message]

/-- Removes the version that ended. -/
def invalidate (e : Event) : Program Bool :=
  match e.oldVersion with
  | none => do
    warnOf e.id "Notification without previous row version" [Log.field "action" e.action.name]
    return false
  | some version =>
    let key := (WeakEtag.ofVersion version).versionKey
    .remove key fun
      | .ok removed => return removed
      | .error cause => do
        warnOfKey key cause "Failed to remove weak etag from cache"
        return false

/-- Adds an etag under a key. -/
def store (etag : WeakEtag) (key : String) : Program Bool :=
  .add key etag fun
    | .ok stored => return stored
    | .error cause => do
      warnOfKey key cause "Failed to add weak etag to cache"
      return false

/-- Adds the etag of the version that began under both of its keys. -/
def enrich (catalog : Catalog) (now : String) (e : Event) (row : Json.Members) : Program Bool :=
  match etagOf catalog now e row with
  | .error reason => do
    if reason = .unknownTable ∧ catalog.logsMisses = true then
      log .catalog .debug "table not in catalog" [Log.field "name" e.id]
    warnOf (reason.table e) reason.message reason.fields
    return false
  | .ok etag => do
    let first ← store etag etag.identity
    let second ← store etag etag.versionKey
    return first && second

/-- The row of an event, with a warning if it is no JSON object. -/
def rowOf (e : Event) : Program (Option Json.Members) :=
  match Json.parseMap e.row with
  | .ok row => return some row
  | .error cause => do
    warnOf e.id "Notification row is not a JSON object; skipping cache enrichment"
      [Log.field "error" cause.message]
    return none

/-- What follows the removal: adds the version that began, and reports. -/
def conclude (catalog : Catalog) (now : String) (e : Event) (row : Option Json.Members)
    (removed : Bool) : Program Outcome := do
  let added ← match e.action.beginsVersion, row with
    | true, some row => enrich catalog now e row
    | _, _ => pure false
  .report (·.count .applyTime) (.done ())
  return { removed, added }

/-- Removes the version that ended and adds the one that began. -/
def apply (catalog : Catalog) (now : String) (e : Event) : Program Outcome := do
  .report (·.count (.events e.action)) (.done ())
  log .changes .debug "received complete notification"
    [Log.field "table" e.id, Log.field "action" e.action.name, Log.field "md5" e.md5]
  let row ← rowOf e
  let removed ← if e.action.endsVersion then invalidate e else pure false
  conclude catalog now e row removed

theorem run_invalidate (e : Event) : (invalidate e).run = Change.invalidate e := by
  unfold invalidate Change.invalidate
  rcases e.oldVersion with - | version
  · rfl
  · refine bind_congr fun removed => ?_
    rcases removed with cause | removed <;> rfl

theorem run_store (etag : WeakEtag) (key : String) :
    (store etag key).run = Change.store etag key := by
  refine bind_congr fun added => ?_
  rcases added with cause | stored <;> rfl

theorem run_enrich (catalog : Catalog) (now : String) (e : Event) (row : Json.Members) :
    (enrich catalog now e row).run = Change.enrich catalog now e row := by
  unfold enrich Change.enrich
  rcases etagOf catalog now e row with reason | etag
  · by_cases hlogs : reason = .unknownTable ∧ catalog.logsMisses = true
    · simp only [if_pos hlogs]
      rfl
    · simp only [if_neg hlogs]
      rfl
  · simp only [Program.run_bind, run_store]
    rfl

theorem run_rowOf (e : Event) : (rowOf e).run = Change.rowOf e := by
  unfold rowOf Change.rowOf
  rcases Json.parseMap e.row with cause | row <;> rfl

theorem run_conclude (catalog : Catalog) (now : String) (e : Event) (row : Option Json.Members)
    (removed : Bool) :
    (conclude catalog now e row removed).run = (do
      let added ← match e.action.beginsVersion, row with
        | true, some row => Change.enrich catalog now e row
        | _, _ => pure false
      Cache.report (·.count .applyTime)
      return { removed, added }) := by
  unfold conclude
  rcases e.action.beginsVersion with - | -
  · rfl
  · rcases row with - | row
    · rfl
    · show Program.run (enrich catalog now e row >>= _) = _
      rw [Program.run_bind, run_enrich]
      rfl

theorem run_apply (catalog : Catalog) (now : String) (e : Event) :
    (apply catalog now e).run = Change.apply catalog now e := by
  unfold apply Change.apply
  rw [Program.run_bind]
  refine bind_congr fun _ => ?_
  rw [Program.run_bind]
  refine bind_congr fun _ => ?_
  rw [Program.run_bind, run_rowOf]
  refine bind_congr fun row => ?_
  rcases e.action.endsVersion with - | -
  · exact run_conclude catalog now e row false
  · show Program.run (invalidate e >>= _) = _ >>= _
    rw [Program.run_bind, run_invalidate]
    exact bind_congr fun removed => run_conclude catalog now e row removed

end Programs

/-! ### Callers -/

/-- A caller that writes to the cache. -/
inductive Call where
  /-- a handler has served a feature -/
  | remember (etag : WeakEtag)
  /-- a listener has received all pages of a change -/
  | apply (catalog : Catalog) (now : String) (e : Event)

/-- What a caller is told in the end. -/
inductive Answer where
  | remembered (stored : Except Cache.Error Bool)
  | applied (outcome : Outcome)

namespace Call

/-- The commands of a caller. -/
def program : Call → Program Answer
  | .remember etag => do return .remembered (← Program.remembering etag)
  | .apply catalog now e => do return .applied (← Programs.apply catalog now e)

/-- The versions that a caller names contain no colon. -/
def ColonFree : Call → Prop
  | .remember etag => FreshTag.ColonFree etag.version
  | .apply _ _ e => e.VersionsColonFree

/-- Alone, the commands are the remembering of the feature. -/
theorem run_remember (etag : WeakEtag) :
    (program (.remember etag)).run = .remembered <$> (Cache.remember etag).run := by
  show Program.run (Program.remembering etag >>= _) = _
  rw [Program.run_bind, Program.run_remembering]
  rfl

/-- Alone, the commands are the application of the change. -/
theorem run_apply (catalog : Catalog) (now : String) (e : Event) :
    (program (.apply catalog now e)).run = .applied <$> Change.apply catalog now e := by
  show Program.run (Programs.apply catalog now e >>= _) = _
  rw [Program.run_bind, Programs.run_apply]
  rfl

end Call

end FreshTag.Change
