/-
FreshTag/Service/Startup.lean

Bringing the service up.  First the database is connected, then the cache is
opened, and last the catalog is read; the first of them that fails ends it.
-/
import FreshTag.Database.Basic
import FreshTag.Service.Error

namespace FreshTag.Service

/-- What the service reaches outside itself. -/
structure Surroundings (m : Type → Type) where
  /-- connects to the database at an address, with at most so many connections -/
  connect (url : String) (maxConnections : Nat) : m (Except String Unit)
  /-- the database, once it is connected -/
  database : Database m
  /-- finds the Redis server at an address, with at most so many connections and so many
  milliseconds for each -/
  redis (address : String) (connections timeout : Nat) : m (Except Cache.Error Redis.Server)

/-- Steps that may fail and report what they do. -/
abbrev Setup (m : Type → Type) (α : Type) := ExceptT Error (StateT Telemetry m) α

variable {m : Type → Type} [Monad m]

/-- Appends a record to the log. -/
def log (source : Log.Source) (level : Log.Level) (message : String)
    (fields : List (String × Json.Value) := []) : StateT Telemetry m Unit :=
  modify (·.record source level message fields)

/-- Connects to the database of the settings. -/
def connect (s : Surroundings m) (access : Settings.DatabaseAccess) : Setup m Unit := do
  match access.url with
  | none => throw .noDatabaseUrl
  | some url =>
    match ← (s.connect url access.maxConnections : m (Except String Unit)) with
    | .error cause => throw (.database cause)
    | .ok () =>
      log (m := m) .database .info "Connected to PostgreSQL"
        [Log.countField "max_connections" access.maxConnections]

/-- Finds the server that a shared cache needs. -/
def serverOf (s : Surroundings m) (c : Settings.Caching) :
    Setup m (Option (String × Redis.Server)) := do
  match c.kind, c.redis with
  | .redis, some access =>
    match ← (s.redis access.address access.poolSize access.timeout :
        m (Except Cache.Error Redis.Server)) with
    | .error cause => throw (.cache cause)
    | .ok server => return some (access.keyPrefix, server)
  | _, _ => return none

/-- Opens the cache of the settings. -/
def openCache (s : Surroundings m) (c : Settings.Caching) : Setup m Cache := do
  match Cache.create c.kind (← serverOf s c) with
  | .error cause => throw (.cache cause)
  | .ok cache =>
    if cache.kind = .redis then
      log (m := m) .sharedCache .info "Connected to redis etag store"
        [Log.countField "pool_size" c.redisPoolSize, Log.field "key_prefix" c.redisKeyPrefix]
    log (m := m) .context .info "Etag cache ready" [Log.field "cache" cache.kind.name]
    return cache

/-- Reads the catalog. -/
def readCatalog (s : Surroundings m) : Setup m Catalog := do
  match ← (s.database.tables : m (Except String (List Catalog.Row))) with
  | .error cause => throw (.catalog { cause })
  | .ok rows =>
    let tables := Catalog.byId (rows.map Catalog.Row.table)
    log (m := m) .catalog .info "Loaded table catalog" [Log.countField "tables" tables.length]
    return Catalog.snapshot tables

/-- What the service works with. -/
structure Context where
  cache : Cache
  catalog : Catalog
  listener : Listener.Config

/-- Brings up what the settings ask for. -/
def prepare (s : Surroundings m) (settings : Settings) : Setup m Context := do
  connect s settings.database
  let cache ← openCache s settings.cache
  let catalog ← readCatalog s
  return { cache, catalog, listener := settings.listener }

end FreshTag.Service
