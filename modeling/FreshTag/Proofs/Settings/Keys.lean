/-
FreshTag/Proofs/Settings/Keys.lean

The settings as a map from keys.  There are finitely many keys, each in a section,
with a name and a type of its own, so entries are a function of the key
(`Entries.get?`), and one set of entries overrides another key by key
(`get?_overriding`).

The entries of a value are gathered from its keys, one after the other, in the
order of `Key.all` (`ofValue_eq_gather`).  So it does not matter what is read for a
key that stronger entries give, as long as it can be read (`gather_sameUnder`).
-/
import FreshTag.Settings.Entries
import Mathlib.Logic.Function.Basic

namespace FreshTag.Settings

/-- A setting. -/
inductive Key where
  | logLevel
  | logJson
  | databaseUrl
  | maxConnections
  | cacheKind
  | naiveCapacity
  | redisUrl
  | redisPassword
  | redisPoolSize
  | redisTimeout
  | redisKeyPrefix
  | listenerEnabled
  | schema
  | waitMilliseconds
  | chunk
  | included
  | excluded
  deriving DecidableEq, Repr

namespace Key

/-- All settings, in the order in which they are read. -/
def all : List Key :=
  [.logLevel, .logJson, .databaseUrl, .maxConnections, .cacheKind, .naiveCapacity, .redisUrl,
   .redisPassword, .redisPoolSize, .redisTimeout, .redisKeyPrefix, .listenerEnabled, .schema,
   .waitMilliseconds, .chunk, .included, .excluded]

theorem mem_all (k : Key) : k ∈ all := by
  cases k <;> decide

/-- The section that a setting is in. -/
def sectionName : Key → String
  | .logLevel | .logJson => "logging"
  | .databaseUrl | .maxConnections => "database"
  | .cacheKind | .naiveCapacity | .redisUrl | .redisPassword | .redisPoolSize | .redisTimeout
  | .redisKeyPrefix => "cache"
  | .listenerEnabled | .schema | .waitMilliseconds | .chunk => "listener"
  | .included | .excluded => "catalog"

/-- The name of a setting in its section. -/
def name : Key → String
  | .logLevel => "level"
  | .logJson => "json"
  | .databaseUrl => "url"
  | .maxConnections => "max_connections"
  | .cacheKind => "kind"
  | .naiveCapacity => "naive_capacity"
  | .redisUrl => "redis_url"
  | .redisPassword => "redis_password"
  | .redisPoolSize => "redis_pool_size"
  | .redisTimeout => "redis_timeout_ms"
  | .redisKeyPrefix => "redis_key_prefix"
  | .listenerEnabled => "enabled"
  | .schema => "temp_schema"
  | .waitMilliseconds => "wait_timeout_ms"
  | .chunk => "chunk_size"
  | .included => "include"
  | .excluded => "exclude"

/-- The type of a setting. -/
abbrev Reading : Key → Type
  | .logJson | .listenerEnabled => Bool
  | .maxConnections | .naiveCapacity | .redisPoolSize | .redisTimeout | .waitMilliseconds
  | .chunk => Nat
  | .included | .excluded => List String
  | _ => String

/-- A value as the type of a setting. -/
def read? : (k : Key) → Value → Option k.Reading
  | .logJson | .listenerEnabled => Value.toBool?
  | .maxConnections | .chunk => Value.toNat? Entries.greatest32
  | .naiveCapacity | .redisPoolSize | .redisTimeout | .waitMilliseconds =>
    Value.toNat? Entries.greatest64
  | .included | .excluded => Value.toTexts?
  | .logLevel | .databaseUrl | .cacheKind | .redisUrl | .redisPassword | .redisKeyPrefix
  | .schema => Value.toText?

theorem read?_table (k : Key) (entries : List (String × Value)) :
    k.read? (.table entries) = none := by
  cases k <;> rfl

end Key

namespace Entries

/-! ### Entries by key -/

/-- What is given for a setting. -/
def get? (e : Entries) : (k : Key) → Option k.Reading
  | .logLevel => e.logLevel
  | .logJson => e.logJson
  | .databaseUrl => e.databaseUrl
  | .maxConnections => e.maxConnections
  | .cacheKind => e.cacheKind
  | .naiveCapacity => e.naiveCapacity
  | .redisUrl => e.redisUrl
  | .redisPassword => e.redisPassword
  | .redisPoolSize => e.redisPoolSize
  | .redisTimeout => e.redisTimeout
  | .redisKeyPrefix => e.redisKeyPrefix
  | .listenerEnabled => e.listenerEnabled
  | .schema => e.schema
  | .waitMilliseconds => e.waitMilliseconds
  | .chunk => e.chunk
  | .included => e.included
  | .excluded => e.excluded

/-- The entries in which each setting is given as the function says. -/
def ofKeys (f : (k : Key) → Option k.Reading) : Entries where
  logLevel := f .logLevel
  logJson := f .logJson
  databaseUrl := f .databaseUrl
  maxConnections := f .maxConnections
  cacheKind := f .cacheKind
  naiveCapacity := f .naiveCapacity
  redisUrl := f .redisUrl
  redisPassword := f .redisPassword
  redisPoolSize := f .redisPoolSize
  redisTimeout := f .redisTimeout
  redisKeyPrefix := f .redisKeyPrefix
  listenerEnabled := f .listenerEnabled
  schema := f .schema
  waitMilliseconds := f .waitMilliseconds
  chunk := f .chunk
  included := f .included
  excluded := f .excluded

theorem get?_ofKeys (f : (k : Key) → Option k.Reading) (k : Key) : (ofKeys f).get? k = f k := by
  cases k <;> rfl

/-- Entries are what they give for each key. -/
theorem ext_get? {e e' : Entries} (h : ∀ k, e.get? k = e'.get? k) : e = e' :=
  congrArg ofKeys (funext h)

theorem get?_overriding (stronger weaker : Entries) (k : Key) :
    (stronger.overriding weaker).get? k = (stronger.get? k).or (weaker.get? k) := by
  cases k <;> rfl

/-- The entries with something else for a setting. -/
def put (e : Entries) (k : Key) (x : Option k.Reading) : Entries :=
  ofKeys (Function.update e.get? k x)

theorem get?_put_self (e : Entries) (k : Key) (x : Option k.Reading) : (e.put k x).get? k = x := by
  rw [put, get?_ofKeys, Function.update_self]

theorem get?_put_of_ne {k other : Key} (h : other ≠ k) (e : Entries) (x : Option k.Reading) :
    (e.put k x).get? other = e.get? other := by
  rw [put, get?_ofKeys, Function.update_of_ne h]

/-! ### Gathering entries -/

/-- What a value gives for a setting. -/
def reading (root : Value) (k : Key) : Except Unusable (Option k.Reading) := do
  (← sectionOf root k.sectionName).read k.read? k.name

/-- Entries from some settings, one after the other. -/
def gather (f : (k : Key) → Except Unusable (Option k.Reading)) (keys : List Key) (e : Entries) :
    Except Unusable Entries :=
  keys.foldlM (fun e k => do return e.put k (← f k)) e

/-- What was looked up once need not be looked up again. -/
theorem bind_again {α β : Type} (s : Except Unusable Section) (f : Section → Except Unusable α)
    (g : α → Section → Except Unusable β) :
    (do let found ← s; let x ← f found; let again ← s; g x again) =
      (do let found ← s; let x ← f found; g x found) := by
  rcases s with cause | found <;> rfl

theorem ofValue_eq_gather (root : Value) : ofValue root = gather (reading root) Key.all {} := by
  unfold gather reading
  simp only [Key.all, List.foldlM_cons, List.foldlM_nil, bind_assoc, pure_bind, Key.sectionName,
    bind_again]
  rfl

end Entries

/-! ### Two readings -/

/-- Two results: the same fault, or values in a relation. -/
def Paired {α : Type} (S : α → α → Prop) (x x' : Except Unusable α) : Prop :=
  (∃ cause, x = .error cause ∧ x' = .error cause) ∨ ∃ a a', x = .ok a ∧ x' = .ok a' ∧ S a a'

namespace Paired

variable {α β : Type} {S : α → α → Prop} {T : β → β → Prop} {x x' : Except Unusable α}

theorem ok {a a' : α} (h : S a a') : Paired S (.ok a) (.ok a') :=
  .inr ⟨a, a', rfl, rfl, h⟩

theorem refl (h : ∀ a, x = .ok a → S a a) : Paired S x x := by
  rcases x with cause | a
  · exact .inl ⟨cause, rfl, rfl⟩
  · exact ok (h a rfl)

theorem imp (h : Paired S x x') {U : α → α → Prop}
    (hSU : ∀ a a', x = .ok a → x' = .ok a' → S a a' → U a a') : Paired U x x' := by
  obtain hfault | ⟨a, a', hx, hx', ha⟩ := h
  · exact .inl hfault
  · exact .inr ⟨a, a', hx, hx', hSU a a' hx hx' ha⟩

theorem bind {f f' : α → Except Unusable β} (h : Paired S x x')
    (hf : ∀ a a', S a a' → Paired T (f a) (f' a')) : Paired T (x >>= f) (x' >>= f') := by
  obtain ⟨cause, rfl, rfl⟩ | ⟨a, a', rfl, rfl, ha⟩ := h
  · exact .inl ⟨cause, rfl, rfl⟩
  · exact hf a a' ha

end Paired

namespace Entries

/-- Two sets of entries differ in settings that stronger entries give, and in no others. -/
def SameUnder (stronger e e' : Entries) : Prop :=
  ∀ k, stronger.get? k = none → e.get? k = e'.get? k

theorem SameUnder.overriding_eq {stronger e e' : Entries} (h : SameUnder stronger e e') :
    stronger.overriding e = stronger.overriding e' := by
  refine ext_get? fun k => ?_
  rw [get?_overriding, get?_overriding]
  rcases hk : stronger.get? k with - | x
  · rw [h k hk]
  · rw [Option.some_or, Option.some_or]

theorem SameUnder.put {stronger e e' : Entries} (h : SameUnder stronger e e') {k : Key}
    {x x' : Option k.Reading} (hx : stronger.get? k = none → x = x') :
    SameUnder stronger (e.put k x) (e'.put k x') := by
  intro other hother
  by_cases hk : other = k
  · subst hk
    rw [get?_put_self, get?_put_self, hx hother]
  · rw [get?_put_of_ne hk, get?_put_of_ne hk, h other hother]

/-- Settings that read the same, unless stronger entries give them, are gathered to entries that are
the same under those. -/
theorem gather_sameUnder {stronger : Entries}
    {f f' : (k : Key) → Except Unusable (Option k.Reading)}
    (hf : ∀ k, Paired (fun x x' => stronger.get? k = none → x = x') (f k) (f' k))
    (keys : List Key) {e e' : Entries} (h : SameUnder stronger e e') :
    Paired (SameUnder stronger) (gather f keys e) (gather f' keys e') := by
  induction keys generalizing e e' with
  | nil => exact .ok h
  | cons k keys ih =>
    unfold gather at ih ⊢
    rw [List.foldlM_cons, List.foldlM_cons, bind_assoc, bind_assoc]
    exact (hf k).bind fun x x' hx => ih (h.put hx)

end Entries

end FreshTag.Settings
