/-
FreshTag/Cache/LinkStore.lean

The cache inside the process.  A weak etag is stored once, under its identity,
and any number of keys may lead to it; a key may lead to several identities,
because rows written by one transaction share their version.

`index` leads from a key to the identities behind it, the oldest link first,
and never to an empty list.  `values` leads from an identity to the etag and to
the keys that lead there.  Removing a key drops every etag behind it and every
other link to those etags.
-/
import FreshTag.Dict
import FreshTag.Etag.Weak

namespace FreshTag.Cache

/-- An etag with the keys that lead to it. -/
structure Stored where
  etag : WeakEtag
  keys : List String
  deriving Inhabited

/-- Weak etags with the keys that lead to them. -/
structure LinkStore where
  index : Dict (List String) := {}
  values : Dict Stored := {}
  deriving Inhabited

/-- The list with `x` at its end, unless it holds `x` already. -/
def appendNew (x : String) (xs : List String) : List String :=
  if x ∈ xs then xs else xs ++ [x]

namespace LinkStore

/-- The store without etags. -/
def empty : LinkStore := {}

/-- The identities behind a key, the oldest link first. -/
def identities (s : LinkStore) (key : String) : List String :=
  (s.index.get? key).getD []

/-- The keys that lead to an identity. -/
def keysOf (s : LinkStore) (identity : String) : List String :=
  ((s.values.get? identity).map Stored.keys).getD []

/-- Stores an etag, replacing an earlier one of its identity, and links a key to it. -/
def add (s : LinkStore) (key : String) (etag : WeakEtag) : LinkStore where
  index := s.index.set key (appendNew etag.identity (s.identities key))
  values := s.values.set etag.identity ⟨etag, appendNew key (s.keysOf etag.identity)⟩

/-- Takes an identity out of the list behind a key. -/
def unlink (identity : String) (s : LinkStore) (key : String) : LinkStore :=
  { s with
    index := s.index.alter key fun linked =>
      match (linked.getD []).filter (· ≠ identity) with
      | [] => none
      | rest => some rest }

/-- Drops an etag and the links to it from keys other than `key`. -/
def drop (key : String) (s : LinkStore) (identity : String) : LinkStore :=
  match s.values.get? identity with
  | none => s
  | some stored =>
    (stored.keys.filter (· ≠ key)).foldl (unlink identity)
      { s with values := s.values.erase identity }

/-- Drops every etag behind a key with all links to it; none if nothing is behind the key. -/
def remove? (s : LinkStore) (key : String) : Option LinkStore :=
  (s.index.get? key).map fun linked =>
    linked.foldl (drop key) { s with index := s.index.erase key }

/-- Something is behind the key. -/
def contains (s : LinkStore) (key : String) : Bool :=
  s.index.contains key

/-- The etag behind the latest link of a key. -/
def get? (s : LinkStore) (key : String) : Option WeakEtag := do
  let linked ← s.index.get? key
  let identity ← linked.getLast?
  let stored ← s.values.get? identity
  some stored.etag

/-- How many etags are stored. -/
def size (s : LinkStore) : Nat :=
  s.values.size

end LinkStore

end FreshTag.Cache
