/-
FreshTag/Telemetry/Line.lean

Records of the log as lines of text: a JSON object with the fields beside level
and message, or level, message and fields one after the other.
-/
import FreshTag.Json.Printer
import FreshTag.Telemetry.Log

namespace FreshTag.Log.Record

/-- The record as a JSON object. -/
def json (r : Record) : Json.Value :=
  .object (Json.Members.ofList
    ([("level", .string r.level.name), ("message", .string r.message)] ++ r.allFields))

/-- A field without its quotes. -/
def fieldText (name : String) (value : Json.Value) : String :=
  name ++ "=" ++ (value.string?).getD value.text

/-- The record in one line of words. -/
def words (r : Record) : String :=
  " ".intercalate
    ([r.level.name, r.message] ++ r.allFields.map fun (name, value) => fieldText name value)

end FreshTag.Log.Record
