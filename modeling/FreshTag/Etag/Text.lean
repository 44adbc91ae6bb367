/-
FreshTag/Etag/Text.lean

The JSON text of a weak etag, as it is kept outside the process.  The fields
stand in a fixed order, and `data` only if the row is known.  Reading takes an
object with the fields in any order, or an array of them; unknown keys are
skipped, and `data` may be absent or `null`.
-/
import FreshTag.Etag.Weak
import FreshTag.Json.Printer
import FreshTag.Json.Record

namespace FreshTag.WeakEtag

open FreshTag.Json

/-- The JSON text of the etag. -/
def print (e : WeakEtag) : List Char :=
  braced <|
    [printMember "collection" (printString e.collection),
     printMember "feature_id" (printString e.featureId),
     printMember "version" (printString e.version),
     printMember "last_modified" (printString e.lastModified)] ++
    match e.data with
    | some row => [printMember "data" (Value.object row).print]
    | none => []

/-- The JSON text of the etag. -/
def text (e : WeakEtag) : String :=
  String.ofList e.print

/-- What was read of an etag so far. -/
structure Draft where
  collection : Option String := none
  featureId : Option String := none
  version : Option String := none
  lastModified : Option String := none
  data : Option (Option Members) := none

/-- The fields of an etag. -/
def fields (embedded : Embedded) (depth : Nat) : List (RecordField Draft) := [
  { name := "collection", optional := false, filled := (·.collection.isSome),
    read := fun d cs =>
      (readTextValue cs).map fun (s, cs) => ({ d with collection := some s }, cs) },
  { name := "feature_id", optional := false, filled := (·.featureId.isSome),
    read := fun d cs =>
      (readTextValue cs).map fun (s, cs) => ({ d with featureId := some s }, cs) },
  { name := "version", optional := false, filled := (·.version.isSome),
    read := fun d cs =>
      (readTextValue cs).map fun (s, cs) => ({ d with version := some s }, cs) },
  { name := "last_modified", optional := false, filled := (·.lastModified.isSome),
    read := fun d cs =>
      (readTextValue cs).map fun (s, cs) => ({ d with lastModified := some s }, cs) },
  { name := "data", optional := true, filled := (·.data.isSome),
    read := fun d cs =>
      (readOption (readMap embedded depth) cs).map fun (v, cs) => ({ d with data := some v }, cs) }]

/-- The etag of a complete draft. -/
def Draft.etag (d : Draft) : WeakEtag where
  collection := d.collection.getD ""
  featureId := d.featureId.getD ""
  version := d.version.getD ""
  lastModified := d.lastModified.getD ""
  data := d.data.getD none

/-- The etag that a JSON text denotes. -/
def parse (s : String) : Except Json.Error WeakEtag :=
  (parseAll (Record.read "WeakEtag" (fields (embeddedIn s)) {} nestingLimit) s).map Draft.etag

end FreshTag.WeakEtag
