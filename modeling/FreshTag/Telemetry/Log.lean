/-
FreshTag/Telemetry/Log.lean

Log records: the part of the service that speaks, a level, a message that never
changes, and named fields with what the message is about.

Every part has a path, in which `::` stands before a part of a part.  Most
parts also give their records a topic as a first field.
-/
import FreshTag.Json.Value

namespace FreshTag.Log

/-- The level of a record, the most serious first. -/
inductive Level where
  | error
  | warn
  | info
  | debug
  | trace
  deriving DecidableEq, Repr, Inhabited

/-- Position in the order of levels. -/
def Level.rank : Level → Nat
  | .error => 1
  | .warn => 2
  | .info => 3
  | .debug => 4
  | .trace => 5

/-- The name of a level in records. -/
def Level.name : Level → String
  | .error => "ERROR"
  | .warn => "WARN"
  | .info => "INFO"
  | .debug => "DEBUG"
  | .trace => "TRACE"

/-- The part of the service that a record comes from. -/
inductive Source where
  /-- the program while it serves -/
  | serving
  /-- the program while it cleans up -/
  | cleaning
  /-- the end of the program by an error -/
  | failure
  /-- the connection to the database -/
  | database
  /-- what the program works with -/
  | context
  | conditional
  | catalog
  | cache
  | sharedCache
  /-- joining the pages of notifications -/
  | pages
  /-- applying complete notifications -/
  | changes
  | listener
  deriving DecidableEq, Repr, Inhabited

/-- The path of a part. -/
def Source.path : Source → String
  | .serving | .cleaning | .failure => "featuretag"
  | .database => "featuretag::infra::db"
  | .context => "featuretag::application::context"
  | .conditional => "featuretag::application::conditional"
  | .catalog => "featuretag::catalog::postgres"
  | .cache => "featuretag::cache"
  | .sharedCache => "featuretag::cache::external"
  | .pages => "featuretag::listener::reassembly"
  | .changes => "featuretag::listener::dispatch"
  | .listener => "featuretag::listener"

/-- The topic of the records of a part. -/
def Source.topic? : Source → Option String
  | .serving => some "featuretag::serve"
  | .cleaning => some "featuretag::cleanup"
  | .failure => none
  | .catalog => some "featuretag::catalog"
  | .pages | .changes => some "featuretag::listener"
  | source => some source.path

/-- A record of the log. -/
structure Record where
  source : Source
  level : Level
  message : String
  fields : List (String × Json.Value) := []
  deriving Repr, Inhabited

/-- Levels that are shown: none, or all up to one. -/
abbrev Threshold := Option Level

/-- A record of the level is shown. -/
def Threshold.shows (t : Threshold) (level : Level) : Bool :=
  match t with
  | none => false
  | some most => level.rank ≤ most.rank

/-- A field with a text. -/
def field (name value : String) : String × Json.Value :=
  (name, .string value)

/-- A field with a number. -/
def countField (name : String) (value : Nat) : String × Json.Value :=
  (name, .number (.natural value))

/-- The fields of a record, with the topic in front. -/
def Record.allFields (r : Record) : List (String × Json.Value) :=
  (r.source.topic?.map (field "target")).toList ++ r.fields

/-- The names of all fields; the message counts as one. -/
def Record.fieldNames (r : Record) : List String :=
  "message" :: r.allFields.map Prod.fst

end FreshTag.Log
