/-
FreshTag/Conditional.lean

Conditional requests.  A handler answers that a feature was not modified when
a strong etag of the request names a row version that the cache still holds,
and remembers the etag of every feature it serves.

The header `If-None-Match` is `*` or a list of tags between commas; a tag keeps
its quotes and loses one mark of weakness in front.
-/
import FreshTag.Cache.Basic

namespace FreshTag

/-- The header `If-None-Match`. -/
inductive IfNoneMatch where
  /-- any representation matches -/
  | any
  /-- one of the tags has to match -/
  | tags (candidates : List String)
  deriving DecidableEq, Repr

namespace IfNoneMatch

/-- A tag without the mark of weakness. -/
def withoutMark (tag : List Char) : List Char :=
  (Text.dropStart? ['W', '/'] tag).getD tag

/-- The header that a text denotes. -/
def parse (header : String) : IfNoneMatch :=
  let cs := Text.trimChars header.toList
  if cs = ['*'] then .any
  else
    let tags := ((Text.pieces ',' cs).map Text.trimChars).filter (· ≠ [])
    .tags (tags.map fun tag => String.ofList (withoutMark tag))

/-- The tags of a header. -/
def candidates : IfNoneMatch → List String
  | .any => []
  | .tags candidates => candidates

end IfNoneMatch

namespace Cache

/-- One of the strong etags is in the cache; stops at the first that is, or that is malformed. -/
def containsOne : List String → Op Bool
  | [] => return false
  | candidate :: rest => do
    if ← contains candidate then
      log .conditional .debug "etag found in cache" [Log.field "etag" candidate]
      return true
    containsOne rest

/-- Stores the etag of a served feature under both of its keys, unless it is there already; true
if it was stored. -/
def remember (etag : WeakEtag) : Op Bool := do
  match ← find etag.identity with
  | some _ => return false
  | none =>
    let stored ← add etag.identity etag
    let linked ← add etag.versionKey etag
    return stored && linked

end Cache

end FreshTag
