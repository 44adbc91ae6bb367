/-
FreshTag/Catalog/Table.lean

What is known of a database table: its name, its identifier, the types of its
columns and its primary key, if that is a single column.

A table is referred to by its identifier, quoted where necessary, or by its
plain name `schema.table`.
-/
import FreshTag.Catalog.Identifier
import FreshTag.Dict
import FreshTag.Text.Quoted

namespace FreshTag.Catalog

/-- The type of a column, as far as feature ids depend on it. -/
inductive ColumnKind where
  | text
  | varChar
  | int2
  | int4
  | int8
  | float4
  | float8
  | numeric
  | other (typeName : String)
  deriving DecidableEq, Repr, Inhabited

namespace ColumnKind

/-- The kind of a column of the named type. -/
def ofTypeName (name : String) : ColumnKind :=
  match name with
  | "text" => .text
  | "varchar" => .varChar
  | "bpchar" => .varChar
  | "int2" => .int2
  | "int4" => .int4
  | "int8" => .int8
  | "float4" => .float4
  | "float8" => .float8
  | "numeric" => .numeric
  | unknown => .other unknown

/-- The kind as the log shows it; of a type that is not handled the name is shown in quotes. -/
def label : ColumnKind → String
  | .text => "Text"
  | .varChar => "VarChar"
  | .int2 => "Int2"
  | .int4 => "Int4"
  | .int8 => "Int8"
  | .float4 => "Float4"
  | .float8 => "Float8"
  | .numeric => "Numeric"
  | .other name => "Other(" ++ Text.quoted name ++ ")"

/-- Values are texts. -/
def isTextual : ColumnKind → Bool
  | .text | .varChar => true
  | _ => false

/-- Values are numbers. -/
def isNumeric : ColumnKind → Bool
  | .int2 | .int4 | .int8 | .float4 | .float8 | .numeric => true
  | _ => false

end ColumnKind

/-- A database table. -/
structure Table where
  /-- the identifier, quoted where necessary -/
  id : String
  schema : String
  name : String
  /-- the primary key, if it is a single column -/
  idColumn : Option String := none
  columns : Dict ColumnKind := {}

namespace Table

/-- The identifier of a table. -/
def identifier (schema name : String) : String :=
  plainOrQuoted schema ++ "." ++ plainOrQuoted name

/-- A table of which only the name is known. -/
def ofName (schema name : String) : Table :=
  { id := identifier schema name, schema, name }

/-- The table with one more column; a later type of a column replaces an earlier one. -/
def withColumn (t : Table) (column : String) (kind : ColumnKind) : Table :=
  { t with columns := t.columns.set column kind }

/-- The table with a primary key of one column. -/
def withIdColumn (t : Table) (column : String) (kind : ColumnKind) : Table :=
  { t.withColumn column kind with idColumn := some column }

/-- The kind of the primary key. -/
def idKind (t : Table) : Option ColumnKind :=
  t.idColumn.bind t.columns.get?

/-- The plain name, schema and table without quotes. -/
def qualifiedName (t : Table) : String :=
  t.schema ++ "." ++ t.name

/-- The table is meant by `name`. -/
def answersTo (t : Table) (name : String) : Bool :=
  t.id = name || t.qualifiedName = name

end Table

end FreshTag.Catalog
