/-
FreshTag/Etag/Weak.lean

A weak etag is the server's fingerprint of one version of one row: the
collection the row is served in, its feature id, the version marker of the row
and the date the etag was made at, with the row itself if it is known.

Two keys lead to a weak etag in a cache.  `identity` names the row version;
`versionKey` is the version alone, which rows written by one transaction
share.
-/
import FreshTag.Json.Value

namespace FreshTag

/-- The fingerprint of a row version. -/
structure WeakEtag where
  collection : String
  featureId : String
  version : String
  lastModified : String
  data : Option Json.Members := none
  deriving Repr, Inhabited

namespace WeakEtag

/-- An etag of which only the version is known, as deletions describe rows. -/
def ofVersion (version : String) : WeakEtag :=
  { collection := "", featureId := "", version, lastModified := "" }

/-- Collection, feature id and version, with colons between them. -/
def identity (e : WeakEtag) : String :=
  e.collection ++ ":" ++ e.featureId ++ ":" ++ e.version

/-- The version alone. -/
def versionKey (e : WeakEtag) : String :=
  e.version

/-- The keys an etag is stored under, in the order they are written. -/
def keys (e : WeakEtag) : List String :=
  [e.identity, e.versionKey]

/-- The etag as a weak validator. -/
def display (e : WeakEtag) : String :=
  "W/\"" ++ e.version ++ "\""

end WeakEtag

end FreshTag
