/-
FreshTag/Cache/SharedStore.lean

The cache on a Redis server.  Under a prefix there are four families of keys:

* `prefix:key:lookup`, the identities behind a lookup key,
* `prefix:etag:identity`, the JSON text of an etag,
* `prefix:aliases:identity`, the lookup keys that lead to it,
* `prefix:etags`, every stored identity.

Every operation takes a connection out of the pool first.  Adding and removing
are one script each, so no other client sees them half done; a command that
fails inside a script ends it there.
-/
import FreshTag.Cache.Redis
import FreshTag.Etag.Text

namespace FreshTag.Cache

open FreshTag.Redis (Run)

/-- The prefix of the keys of one cache. -/
structure KeyPrefix where
  text : String
  deriving DecidableEq, Repr, Inhabited

namespace KeyPrefix

/-- The prefix of a setting, without the colons at its end. -/
def ofSetting (s : String) : KeyPrefix :=
  ⟨String.ofList (s.toList.reverse.dropWhile (· = ':')).reverse⟩

/-- The identities behind a lookup key. -/
def lookup (p : KeyPrefix) (key : String) : String := p.text ++ ":key:" ++ key

/-- The text of an etag. -/
def value (p : KeyPrefix) (identity : String) : String := p.text ++ ":etag:" ++ identity

/-- The lookup keys that lead to an etag. -/
def aliases (p : KeyPrefix) (identity : String) : String := p.text ++ ":aliases:" ++ identity

/-- Every stored identity. -/
def index (p : KeyPrefix) : String := p.text ++ ":etags"

end KeyPrefix

namespace SharedStore

variable (p : KeyPrefix)

/-- The server can be reached, and answers. -/
def reach : Run Unit := do
  Redis.connect
  Redis.ping

/-- The script that stores an etag and links a key to it. -/
def add (key : String) (etag : WeakEtag) : Run Unit := do
  Redis.connect
  Redis.evalSha
  Redis.sAdd (p.lookup key) etag.identity
  Redis.set (p.value etag.identity) etag.text
  Redis.sAdd (p.aliases etag.identity) key
  Redis.sAdd p.index etag.identity

/-- The part of the removal script that drops one etag. -/
def drop (identity : String) : Run Unit := do
  let aliases ← Redis.sMembers (p.aliases identity)
  aliases.forM fun key => Redis.sRem (p.lookup key) identity
  Redis.del [p.aliases identity, p.value identity]
  Redis.sRem p.index identity

/-- The script that drops every etag behind a key. -/
def remove (key : String) : Run Bool := do
  Redis.connect
  Redis.evalSha
  let identities ← Redis.sMembers (p.lookup key)
  if identities.isEmpty then
    return false
  identities.forM (drop p)
  Redis.del [p.lookup key]
  return true

/-- Something is behind the key. -/
def contains (key : String) : Run Bool := do
  Redis.connect
  Redis.exists? (p.lookup key)

/-- The text of one of the etags behind a key. -/
def getText (key : String) : Run (Option String) := do
  Redis.connect
  match ← Redis.sRandMember (p.lookup key) with
  | none => return none
  | some identity => Redis.get (p.value identity)

/-- How many etags are stored. -/
def size : Run Nat := do
  Redis.connect
  Redis.sCard p.index

end SharedStore

end FreshTag.Cache
