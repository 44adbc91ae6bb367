/-
FreshTag/Settings/Basic.lean

The settings of the service, checked and with the defaults filled in.  The
first rule that is broken, in the order in which they are listed at
`Settings.ofEntries`, is the reason of a refusal; there is no refusal without a
broken rule.
-/
import FreshTag.Cache.Address
import FreshTag.Cache.Kind
import FreshTag.Catalog.Filter
import FreshTag.Database.Statements
import FreshTag.Listener.Basic
import FreshTag.Settings.Entries
import FreshTag.Telemetry.Log

namespace FreshTag

/-- How records of the log are written. -/
inductive Settings.LogForm where
  | json
  | compact
  deriving DecidableEq, Repr, Inhabited

/-- The settings of the log. -/
structure Settings.Logging where
  threshold : Log.Threshold
  form : Settings.LogForm
  deriving DecidableEq, Repr, Inhabited

/-- The settings of the database. -/
structure Settings.DatabaseAccess where
  url : Option String
  maxConnections : Nat
  deriving DecidableEq, Repr, Inhabited

/-- The settings of a Redis server. -/
structure Settings.RedisAccess where
  url : String
  password : Option String
  poolSize : Nat
  timeout : Nat
  keyPrefix : String
  deriving DecidableEq, Repr, Inhabited

/-- The settings of the cache. -/
structure Settings.Caching where
  kind : CacheKind
  naiveCapacity : Nat
  redisUrl : Option String
  redisPassword : Option String
  redisPoolSize : Nat
  redisTimeout : Nat
  redisKeyPrefix : String
  deriving DecidableEq, Repr, Inhabited

/-- The settings of the service. -/
structure Settings where
  logging : Settings.Logging
  database : Settings.DatabaseAccess
  cache : Settings.Caching
  listenerEnabled : Bool
  listener : Listener.Config
  included : List String
  excluded : List String
  deriving DecidableEq, Repr, Inhabited

namespace Settings

/-- A setting with a value that is not allowed. -/
structure Invalid where
  setting : String
  reason : String
  deriving DecidableEq, Repr, Inhabited

/-- Why there are no settings. -/
inductive Error where
  | unusable (cause : Unusable)
  | invalid (cause : Invalid)
  deriving DecidableEq, Repr

/-- The wording of a reason. -/
def Error.message : Error → String
  | .unusable cause => "failed to build configuration: " ++ cause.message
  | .invalid cause =>
    "invalid configuration for `" ++ cause.setting ++ "`: " ++ cause.reason

/-! ### Levels -/

/-- The names of levels. -/
def levelNames : List (String × Log.Threshold) :=
  [("off", none), ("error", some .error), ("warn", some .warn), ("info", some .info),
   ("debug", some .debug), ("trace", some .trace), ("", some .error)]

/-- The level of a text: a name in any case, or its place in the order of levels. -/
def threshold? (s : String) : Option Log.Threshold :=
  match (Number.natural64? s).bind fun n => (levelNames.take 6)[n]? with
  | some (_, threshold) => some threshold
  | none => (levelNames.find? (·.1 = Text.lowerAscii s)).map Prod.snd

/-- The wording of a level that is not known. -/
def unknownLevel : String :=
  "failed to parse: error parsing level filter: expected one of \"off\", \"error\", \"warn\", " ++
    "\"info\", \"debug\", \"trace\", or a number 0-5"

/-! ### Checks -/

/-- Refuses the value of a setting. -/
def refuse {α : Type} (setting reason : String) : Except Invalid α :=
  .error { setting, reason }

/-- A number that is not 0. -/
def positive (setting : String) (n : Nat) : Except Invalid Nat :=
  if n = 0 then refuse setting "must be greater than zero" else .ok n

/-- A text that is not blank, without the space around it. -/
def nonBlank (setting s : String) : Except Invalid String :=
  match Text.nonBlank? s with
  | some s => .ok s
  | none => refuse setting "must not be empty"

/-- The settings of the log. -/
def loggingOf (e : Entries) : Except Invalid Logging := do
  let threshold ← match e.logLevel with
    | none => pure (some .info)
    | some level =>
      match threshold? level with
      | some threshold => pure threshold
      | none => refuse "logging.level" unknownLevel
  return { threshold, form := if e.logJson.getD false then .json else .compact }

/-- The settings of the database. -/
def databaseOf (e : Entries) : Except Invalid DatabaseAccess := do
  let maxConnections ← positive "database.max_connections" (e.maxConnections.getD 8)
  return { url := e.databaseUrl.bind Text.nonBlank?, maxConnections }

/-- The kind of cache that is asked for. -/
def kindOf (e : Entries) : Except Invalid CacheKind :=
  match CacheKind.ofText (e.cacheKind.getD "disabled") with
  | .ok kind => .ok kind
  | .error unknown => refuse "cache.kind" (CacheKind.unknownMessage unknown)

/-- The settings of the cache. -/
def cacheOf (e : Entries) : Except Invalid Caching := do
  let kind ← kindOf e
  let redisUrl := e.redisUrl.bind Text.nonBlank?
  if kind = .redis ∧ redisUrl = none then
    refuse "cache.redis_url" "required when cache.kind is redis"
  let redisPoolSize ← positive "cache.redis_pool_size" (e.redisPoolSize.getD 8)
  let redisTimeout ← positive "cache.redis_timeout_ms" (e.redisTimeout.getD 2000)
  let redisKeyPrefix ← nonBlank "cache.redis_key_prefix" (e.redisKeyPrefix.getD "featuretag")
  return { kind, naiveCapacity := e.naiveCapacity.getD 1000, redisUrl,
           redisPassword := e.redisPassword.bind Text.nonBlank?, redisPoolSize, redisTimeout,
           redisKeyPrefix }

/-- The settings of the listener. -/
def listenerOf (e : Entries) : Except Invalid Listener.Config := do
  let schema ← nonBlank "listener.temp_schema" (e.schema.getD "featuretag_cdc")
  let waitMilliseconds ← positive "listener.wait_timeout_ms" (e.waitMilliseconds.getD 5000)
  let chunk ← positive "listener.chunk_size" (e.chunk.getD 1000)
  if Database.greatestChunk < chunk then
    refuse "listener.chunk_size"
      ("must be at most " ++ toString Database.greatestChunk ++ " to fit one notification")
  return { schema, waitMilliseconds, chunk }

/-- The settings that the entries ask for.  The rules, in order: the level is known, connections
are positive, the kind of cache is known, a shared cache has an address, its pool and its timeout
are positive and its prefix is not blank, the schema is not blank, the wait is positive, and a page
is positive and fits. -/
def ofEntries (e : Entries) : Except Invalid Settings := do
  let logging ← loggingOf e
  let database ← databaseOf e
  let cache ← cacheOf e
  let listener ← listenerOf e
  return { logging, database, cache, listenerEnabled := e.listenerEnabled.getD true, listener,
           included := e.included.getD [], excluded := e.excluded.getD [] }

/-- The tables that are watched. -/
def filter (s : Settings) : Catalog.Filter :=
  .ofEntries s.included s.excluded

/-- The Redis server of the settings, if they give an address. -/
def Caching.redis (c : Caching) : Option RedisAccess :=
  c.redisUrl.map fun url =>
    { url, password := c.redisPassword, poolSize := c.redisPoolSize, timeout := c.redisTimeout,
      keyPrefix := c.redisKeyPrefix }

/-- The address of the server with its password. -/
def RedisAccess.address (a : RedisAccess) : String :=
  match a.password with
  | none => a.url
  | some password => Redis.withPassword password a.url

/-- The settings of all layers, with entries that override them. -/
def load (layers : Layers) (overrides : Entries) : Except Error Settings :=
  match layers.combined with
  | .error cause => .error (.unusable cause)
  | .ok root =>
    match Entries.ofValue root with
    | .error cause => .error (.unusable cause)
    | .ok entries =>
      match ofEntries (overrides.overriding entries) with
      | .error cause => .error (.invalid cause)
      | .ok settings => .ok settings

end Settings

end FreshTag
