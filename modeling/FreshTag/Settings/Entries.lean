/-
FreshTag/Settings/Entries.lean

The settings as far as they are given: each with its type, and each optional.
Entries are read from the combined layers and overridden by those of the
command line, one by one.

A section is a table, or a list of its settings in their order; anything else
is of the wrong type, and so is `null`.
-/
import FreshTag.Settings.Layers
import FreshTag.Settings.Reading

namespace FreshTag.Settings

/-- The settings that are given. -/
structure Entries where
  logLevel : Option String := none
  logJson : Option Bool := none
  databaseUrl : Option String := none
  maxConnections : Option Nat := none
  cacheKind : Option String := none
  naiveCapacity : Option Nat := none
  redisUrl : Option String := none
  redisPassword : Option String := none
  redisPoolSize : Option Nat := none
  redisTimeout : Option Nat := none
  redisKeyPrefix : Option String := none
  listenerEnabled : Option Bool := none
  schema : Option String := none
  waitMilliseconds : Option Nat := none
  chunk : Option Nat := none
  included : Option (List String) := none
  excluded : Option (List String) := none
  deriving DecidableEq, Repr, Inhabited

namespace Entries

/-- Entries over weaker ones. -/
def overriding (stronger weaker : Entries) : Entries where
  logLevel := stronger.logLevel.or weaker.logLevel
  logJson := stronger.logJson.or weaker.logJson
  databaseUrl := stronger.databaseUrl.or weaker.databaseUrl
  maxConnections := stronger.maxConnections.or weaker.maxConnections
  cacheKind := stronger.cacheKind.or weaker.cacheKind
  naiveCapacity := stronger.naiveCapacity.or weaker.naiveCapacity
  redisUrl := stronger.redisUrl.or weaker.redisUrl
  redisPassword := stronger.redisPassword.or weaker.redisPassword
  redisPoolSize := stronger.redisPoolSize.or weaker.redisPoolSize
  redisTimeout := stronger.redisTimeout.or weaker.redisTimeout
  redisKeyPrefix := stronger.redisKeyPrefix.or weaker.redisKeyPrefix
  listenerEnabled := stronger.listenerEnabled.or weaker.listenerEnabled
  schema := stronger.schema.or weaker.schema
  waitMilliseconds := stronger.waitMilliseconds.or weaker.waitMilliseconds
  chunk := stronger.chunk.or weaker.chunk
  included := stronger.included.or weaker.included
  excluded := stronger.excluded.or weaker.excluded

/-! ### Reading -/

/-- The sections with their settings, both in order. -/
def sections : List (String × List String) :=
  [("logging", ["level", "json"]),
   ("database", ["url", "max_connections"]),
   ("cache", ["kind", "naive_capacity", "redis_url", "redis_password", "redis_pool_size",
     "redis_timeout_ms", "redis_key_prefix"]),
   ("listener", ["enabled", "temp_schema", "wait_timeout_ms", "chunk_size"]),
   ("catalog", ["include", "exclude"])]

/-- A section: its settings by name. -/
structure Section where
  name : String
  find? : String → Option Value

/-- The section of a name. -/
def sectionOf (root : Value) (name : String) : Except Unusable Section :=
  let settings := ((sections.find? (·.1 = name)).map Prod.snd).getD []
  let found := match root with
    | .table entries => Value.find? name entries
    | _ => none
  match found with
  | none => .ok ⟨name, fun _ => none⟩
  | some (.table entries) => .ok ⟨name, fun setting => Value.find? setting entries⟩
  | some (.list items) => .ok ⟨name, fun setting => Value.find? setting (settings.zip items)⟩
  | some _ => .error (.wrongType name)

/-- A setting of a section, if it is given. -/
def Section.read {α : Type} (s : Section) (as? : Value → Option α) (setting : String) :
    Except Unusable (Option α) :=
  match s.find? setting with
  | none => .ok none
  | some .null => .ok none
  | some v =>
    match as? v with
    | some x => .ok (some x)
    | none => .error (.wrongType (s.name ++ "." ++ setting))

/-- The greatest number of 32 bits. -/
def greatest32 : Nat := Number.twoTo 32 - 1

/-- The greatest number of 64 bits. -/
def greatest64 : Nat := Number.twoTo 64 - 1

/-- The entries of the combined layers. -/
def ofValue (root : Value) : Except Unusable Entries := do
  let logging ← sectionOf root "logging"
  let logLevel ← logging.read Value.toText? "level"
  let logJson ← logging.read Value.toBool? "json"
  let database ← sectionOf root "database"
  let databaseUrl ← database.read Value.toText? "url"
  let maxConnections ← database.read (Value.toNat? greatest32) "max_connections"
  let cache ← sectionOf root "cache"
  let cacheKind ← cache.read Value.toText? "kind"
  let naiveCapacity ← cache.read (Value.toNat? greatest64) "naive_capacity"
  let redisUrl ← cache.read Value.toText? "redis_url"
  let redisPassword ← cache.read Value.toText? "redis_password"
  let redisPoolSize ← cache.read (Value.toNat? greatest64) "redis_pool_size"
  let redisTimeout ← cache.read (Value.toNat? greatest64) "redis_timeout_ms"
  let redisKeyPrefix ← cache.read Value.toText? "redis_key_prefix"
  let listener ← sectionOf root "listener"
  let listenerEnabled ← listener.read Value.toBool? "enabled"
  let schema ← listener.read Value.toText? "temp_schema"
  let waitMilliseconds ← listener.read (Value.toNat? greatest64) "wait_timeout_ms"
  let chunk ← listener.read (Value.toNat? greatest32) "chunk_size"
  let catalog ← sectionOf root "catalog"
  let included ← catalog.read Value.toTexts? "include"
  let excluded ← catalog.read Value.toTexts? "exclude"
  return { logLevel, logJson, databaseUrl, maxConnections, cacheKind, naiveCapacity, redisUrl,
           redisPassword, redisPoolSize, redisTimeout, redisKeyPrefix, listenerEnabled, schema,
           waitMilliseconds, chunk, included, excluded }

end Entries

/-- The names of the variables of the environment that hold settings. -/
def variableNames : List String :=
  Entries.sections.flatMap fun (name, settings) =>
    settings.map fun setting => ("featuretag__" ++ name ++ "__" ++ setting).toUpper

end FreshTag.Settings
