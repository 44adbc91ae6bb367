/-
FreshTag/Cache/Basic.lean

The cache of weak etags, with one contract for its three kinds.  Keys are texts
and are taken as they are; only `contains` takes a strong etag and looks its
version up.

An operation is a function from the cache to its answer and the cache
afterwards.  A failed operation has an answer too, the reason, and keeps what
was done before it failed.  The disabled cache holds nothing, the one inside
the process never fails, and the shared one fails with its server.
-/
import FreshTag.Cache.LinkStore
import FreshTag.Cache.SharedStore
import FreshTag.Etag.Strong
import FreshTag.Telemetry.Basic

namespace FreshTag

/-- Where the etags are. -/
inductive Cache.Store where
  | disabled
  | bounded (links : Cache.LinkStore)
  | shared (keys : Cache.KeyPrefix) (server : Redis.Server)
  deriving Inhabited

/-- Why a cache operation failed. -/
inductive Cache.Error where
  | malformed (cause : EtagError)
  | unavailable (reason : String)
  /-- the server failed, or the pool of connections to it (`Redis.Failure.noConnection`) -/
  | backend (cause : Redis.Failure)
  | undecodable (cause : Json.Error)
  | missingServer
  deriving DecidableEq, Repr

/-- A cache and what it reports. -/
structure Cache where
  store : Cache.Store
  telemetry : Telemetry := {}
  deriving Inhabited

namespace Cache

namespace Error

/-- The wording of a reason. -/
def message : Error → String
  | .malformed cause => cause.message
  | .unavailable reason => "etag cache unavailable: " ++ reason
  | .backend .noConnection =>
    "redis connection pool error: " ++ Redis.Failure.noConnection.message
  | .backend cause => "redis command failed: " ++ cause.message
  | .undecodable cause => "failed to encode cached etag: " ++ cause.message
  | .missingServer => "cache kind `redis` requires `cache.redis_url`"

/-- The client sent a bad etag; otherwise the cache itself failed. -/
def isClientError : Error → Bool
  | .malformed _ => true
  | _ => false

end Error

/-- An operation that may fail. -/
abbrev Op (α : Type) := ExceptT Error (StateM Cache) α

/-! ### Reports -/

/-- Changes what is reported. -/
def report (f : Telemetry → Telemetry) : StateM Cache Unit :=
  modify fun c => { c with telemetry := f c.telemetry }

/-- Appends a record to the log. -/
def log (source : Log.Source) (level : Log.Level) (message : String)
    (fields : List (String × Json.Value) := []) : StateM Cache Unit :=
  report (·.record source level message fields)

/-! ### Opening a cache -/

/-- The kind of a cache. -/
def kind (c : Cache) : CacheKind :=
  match c.store with
  | .disabled => .disabled
  | .bounded _ => .naive
  | .shared .. => .redis

/-- A shared cache, once its server has answered. -/
def connect (keyPrefix : String) (server : Redis.Server) : Except Error Cache :=
  match SharedStore.reach.run server with
  | (.error failure, _) => .error (.backend failure)
  | (.ok (), server) => .ok { store := .shared (.ofSetting keyPrefix) server }

/-- A cache of the given kind; a shared one needs a server. -/
def create (kind : CacheKind) (server : Option (String × Redis.Server)) : Except Error Cache :=
  match kind with
  | .disabled => .ok { store := .disabled }
  | .naive => .ok { store := .bounded .empty }
  | .redis =>
    match server with
    | none => .error .missingServer
    | some (keyPrefix, server) => connect keyPrefix server

/-! ### Operations -/

/-- Runs commands on the server of a shared store. -/
def onServer {α : Type} (keys : KeyPrefix) (server : Redis.Server) (run : Redis.Run α) : Op α :=
  fun (c : Cache) =>
    match run server with
    | (.ok x, server) => (.ok x, { c with store := .shared keys server })
    | (.error failure, server) =>
      (.error (.backend failure), { c with store := .shared keys server })

/-- Something is behind the key. -/
def holds (key : String) : Op Bool := do
  match (← get).store with
  | .disabled => return false
  | .bounded links => return links.contains key
  | .shared keys server => onServer keys server (SharedStore.contains keys key)

/-- The version of a strong etag is in the cache. -/
def contains (strong : String) : Op Bool := do
  match StrongEtag.decode strong with
  | .error cause => throw (.malformed cause)
  | .ok etag =>
    let found ← holds etag.version
    let kind := (← get).kind
    report (·.count (.lookups kind found))
    return found

/-- Stores an etag and makes a key lead to it; true if it was stored. -/
def add (key : String) (etag : WeakEtag) : Op Bool := do
  match (← get).store with
  | .disabled => return false
  | .bounded links =>
    let links := links.add key etag
    modify fun c => { c with store := .bounded links }
    report (·.gauge .storedEtags links.size)
    return true
  | .shared keys server =>
    onServer keys server (SharedStore.add keys key etag)
    log .sharedCache .debug "stored weak etag" [Log.field "key" key]
    return true

/-- Drops every etag behind a key; true if there was one. -/
def remove (key : String) : Op Bool := do
  match (← get).store with
  | .disabled => return false
  | .bounded links =>
    match links.remove? key with
    | none => return false
    | some links =>
      modify fun c => { c with store := .bounded links }
      report (·.gauge .storedEtags links.size)
      return true
  | .shared keys server => onServer keys server (SharedStore.remove keys key)

/-- An etag behind a key. -/
def find (key : String) : Op (Option WeakEtag) := do
  match (← get).store with
  | .disabled => return none
  | .bounded links => return links.get? key
  | .shared keys server =>
    match ← onServer keys server (SharedStore.getText keys key) with
    | none => return none
    | some text =>
      match WeakEtag.parse text with
      | .error cause => throw (.undecodable cause)
      | .ok etag => return some etag

/-- How many etags are stored; 0, with a record of it, if the server fails. -/
def size : StateM Cache Nat := do
  match (← get).store with
  | .disabled => return 0
  | .bounded links => return links.size
  | .shared keys server =>
    match ← (onServer keys server (SharedStore.size keys)).run with
    | .ok n => return n
    | .error cause =>
      log .cache .error "Failed to read etag cache size" [Log.field "error" cause.message]
      return 0

end Cache

end FreshTag
