/-
FreshTag/Change/Processor.lean

Keeping a cache in step with the changes of rows.  For every completed change
the version that ended is removed from the cache, and then the row is cached
under the version that began.

A payload that is no notification, or whose page has no proper header, was not
published by the trigger; it is refused and changes nothing.  Everything past
that is logged and passed over: a row that is no JSON object, a version that
is missing, a table that the catalog does not know or cannot look up, a row
without a feature id, and a cache that fails.  A removal that fails does not
keep the row from being cached, and the second key is written even if the first
one failed.
-/
import FreshTag.Cache.Basic
import FreshTag.Catalog.Lookup
import FreshTag.Change.FeatureId
import FreshTag.Change.Reassembly

namespace FreshTag.Change

/-- What became of a completed change. -/
structure Outcome where
  /-- an etag of the version that ended was in the cache -/
  removed : Bool := false
  /-- the row was cached under both of its keys -/
  added : Bool := false
  deriving DecidableEq, Repr, Inhabited

/-- A payload that the trigger did not publish. -/
inductive PayloadError where
  | notification (cause : Json.Error)
  | page (cause : PageError)
  deriving DecidableEq, Repr

/-- What is wrong with the payload. -/
def PayloadError.cause : PayloadError → String
  | .notification cause => cause.message
  | .page cause => cause.message

/-- A warning about a table. -/
def warnOf (table message : String) (fields : List (String × Json.Value) := []) :
    StateM Cache Unit :=
  Cache.log .changes .warn message (Log.field "table" table :: fields)

/-- A warning about a key that the cache failed on. -/
def warnOfKey (key : String) (cause : Cache.Error) (message : String) : StateM Cache Unit :=
  Cache.log .changes .warn message [Log.field "key" key, Log.field "error" cause.message]

/-- Removes the version that ended; true if it was in the cache. -/
def invalidate (e : Event) : StateM Cache Bool := do
  match e.oldVersion with
  | none =>
    warnOf e.id "Notification without previous row version" [Log.field "action" e.action.name]
    return false
  | some version =>
    let key := (WeakEtag.ofVersion version).versionKey
    match ← (Cache.remove key).run with
    | .ok removed => return removed
    | .error cause =>
      warnOfKey key cause "Failed to remove weak etag from cache"
      return false

/-- Stores an etag under a key; a failure is logged and counts as not stored. -/
def store (etag : WeakEtag) (key : String) : StateM Cache Bool := do
  match ← (Cache.add key etag).run with
  | .ok stored => return stored
  | .error cause =>
    warnOfKey key cause "Failed to add weak etag to cache"
    return false

/-- Why the row of an event is not cached. -/
inductive Uncached where
  | noVersion
  | catalogFailed (cause : Catalog.QueryError)
  | unknownTable
  | noFeatureId (table : String) (reason : NoFeatureId)
  deriving DecidableEq, Repr

/-- The warning about a row that is not cached. -/
def Uncached.message : Uncached → String
  | .noVersion => "Notification without new row version"
  | .catalogFailed _ => "Catalog lookup failed"
  | .unknownTable => "Notification about unknown table"
  | .noFeatureId _ reason => reason.message

/-- The table that the warning names: the one that the catalog found, or that of the event. -/
def Uncached.table (e : Event) : Uncached → String
  | .noFeatureId table _ => table
  | _ => e.id

/-- What the warning says besides the table. -/
def Uncached.fields : Uncached → List (String × Json.Value)
  | .catalogFailed cause => [Log.field "error" cause.message]
  | .noFeatureId _ reason => reason.fields
  | _ => []

/-- The etag of the version that began. -/
def etagOf (catalog : Catalog) (now : String) (e : Event) (row : Json.Members) :
    Except Uncached WeakEtag :=
  match e.newVersion with
  | none => .error .noVersion
  | some version =>
    match catalog.lookup e.id with
    | .error cause => .error (.catalogFailed cause)
    | .ok none => .error .unknownTable
    | .ok (some table) =>
      match featureId table row with
      | .error reason => .error (.noFeatureId table.id reason)
      | .ok featureId =>
        .ok { collection := e.id, featureId, version, lastModified := now, data := some row }

/-- Caches the row under the version that began; true if both keys were written. -/
def enrich (catalog : Catalog) (now : String) (e : Event) (row : Json.Members) :
    StateM Cache Bool := do
  match etagOf catalog now e row with
  | .error reason =>
    if reason = .unknownTable ∧ catalog.logsMisses = true then
      Cache.log .catalog .debug "table not in catalog" [Log.field "name" e.id]
    warnOf (reason.table e) reason.message reason.fields
    return false
  | .ok etag =>
    let first ← store etag etag.identity
    let second ← store etag etag.versionKey
    return first && second

/-- The row of an event, with a warning if it is no JSON object. -/
def rowOf (e : Event) : StateM Cache (Option Json.Members) := do
  match Json.parseMap e.row with
  | .ok row => return some row
  | .error cause =>
    warnOf e.id "Notification row is not a JSON object; skipping cache enrichment"
      [Log.field "error" cause.message]
    return none

/-- Applies a completed change to the cache. -/
def apply (catalog : Catalog) (now : String) (e : Event) : StateM Cache Outcome := do
  Cache.report (·.count (.events e.action))
  Cache.log .changes .debug "received complete notification"
    [Log.field "table" e.id, Log.field "action" e.action.name, Log.field "md5" e.md5]
  let row ← rowOf e
  let removed ← if e.action.endsVersion then invalidate e else pure false
  let added ← match e.action.beginsVersion, row with
    | true, some row => enrich catalog now e row
    | _, _ => pure false
  Cache.report (·.count .applyTime)
  return { removed, added }

/-- Notification and page of a payload. -/
def readPayload (payload : String) : Except PayloadError (Notification × Page) :=
  match Notification.parse payload with
  | .error cause => .error (.notification cause)
  | .ok n =>
    match Page.parse n.rawData with
    | .error cause => .error (.page cause)
    | .ok p => .ok (n, p)

/-- Changes that are not complete, and the cache that is kept in step. -/
structure Processor where
  pending : Pending := {}
  cache : Cache
  deriving Inhabited

namespace Processor

/-- What taking a page of a change with the digest `md5` reports. -/
def reportPage (md5 : String) (p : Page) (pending : Pending) (t : Telemetry) : Telemetry :=
  if p.isSingle then t
  else
    let t := t.record .pages .debug "received notification page"
      [Log.field "md5" md5, Log.countField "page" p.number, Log.countField "pages" p.count]
    t.gauge .pendingMessages pending.size

/-- Handles a payload; an outcome results if it completes a change. -/
def handle (catalog : Catalog) (now payload : String) (s : Processor) :
    Except PayloadError (Option Outcome) × Processor :=
  match readPayload payload with
  | .error e => (.error e, s)
  | .ok (n, p) =>
    let (event, pending) := s.pending.push n p
    let cache := { s.cache with telemetry := reportPage n.md5 p pending s.cache.telemetry }
    match event with
    | none => (.ok none, { pending, cache })
    | some e =>
      let (outcome, cache) := apply catalog now e cache
      (.ok (some outcome), { pending, cache })

end Processor

end FreshTag.Change
