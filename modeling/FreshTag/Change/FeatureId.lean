/-
FreshTag/Change/FeatureId.lean

The feature id of a row, from the column of the primary key.  A text is taken
as it is, a number is written with six decimal places, whole numbers exactly.
In a column of type `numeric` a number may also stand as a string.  Any other
value gives no id.
-/
import FreshTag.Catalog.Table
import FreshTag.Json.NumberReader
import FreshTag.Number.Fixed

namespace FreshTag.Change

open FreshTag.Catalog (ColumnKind Table)

/-- Why a row has no feature id. -/
inductive NoFeatureId where
  /-- the table has no primary key of a single, known column -/
  | noIdColumn
  /-- the value of the column is missing or of a type that is not handled -/
  | unhandled (column : String) (kind : ColumnKind)
  deriving DecidableEq, Repr

/-- The record of the reason. -/
def NoFeatureId.message : NoFeatureId → String
  | .noIdColumn => "Notification about table without a single-column primary key"
  | .unhandled .. => "Notification row id missing or of an unhandled type"

/-- What the record says of the column. -/
def NoFeatureId.fields : NoFeatureId → List (String × Json.Value)
  | .noIdColumn => []
  | .unhandled column kind =>
    [("id_column", .string column), ("id_kind", .string kind.label)]

/-- A number with six places. -/
def fixedText : Json.Number → String
  | .natural n => String.ofList (Number.wholeText n)
  | .negative n => String.ofList ('-' :: Number.wholeText n)
  | .float x => String.ofList x.fixedText

/-- The id that the value of a column of some kind gives. -/
def idOfValue (kind : ColumnKind) (value : Json.Value) : Option String :=
  match value with
  | .string text =>
    if kind.isTextual then some text
    else if kind = .numeric then (Json.Number.ofText? text).map fixedText
    else none
  | .number n => if kind.isNumeric then some (fixedText n) else none
  | _ => none

/-- The feature id of a row of a table. -/
def featureId (table : Table) (row : Json.Members) : Except NoFeatureId String :=
  match table.idColumn, table.idKind with
  | some column, some kind =>
    match (Json.Members.find? column row).bind (idOfValue kind) with
    | some id => .ok id
    | none => .error (.unhandled column kind)
  | _, _ => .error .noIdColumn

end FreshTag.Change
