/-
FreshTag/Catalog/Identifier.lean

How the name of a schema, a table or a trigger is written in a statement.  A
plain name that is no keyword stands bare; any other name stands between
double quotes, with every quote in it doubled.

`plainOrQuoted` chooses between the two, `doubleQuoted` always quotes.
-/

namespace FreshTag.Catalog

/-- Keywords that have to be quoted to serve as names, in alphabetical order. -/
def keywords : List String := [
  "all", "analyse", "analyze", "and", "any", "array", "as", "asc", "asymmetric",
  "authorization", "between", "bigint", "binary", "bit", "boolean", "both", "case", "cast",
  "char", "character", "check", "coalesce", "collate", "collation", "column", "concurrently",
  "constraint", "create", "cross", "current_catalog", "current_date", "current_role",
  "current_schema", "current_time", "current_timestamp", "current_user", "dec", "decimal",
  "default", "deferrable", "desc", "distinct", "do", "else", "end", "except", "exists",
  "extract", "false", "fetch", "float", "for", "foreign", "freeze", "from", "full", "grant",
  "greatest", "group", "grouping", "having", "ilike", "in", "initially", "inner", "inout",
  "int", "integer", "intersect", "interval", "into", "is", "isnull", "join", "json",
  "json_array", "json_arrayagg", "json_exists", "json_object", "json_objectagg", "json_query",
  "json_scalar", "json_serialize", "json_table", "json_value", "lateral", "leading", "least",
  "left", "like", "limit", "localtime", "localtimestamp", "merge_action", "national",
  "natural", "nchar", "none", "normalize", "not", "notnull", "null", "nullif", "numeric",
  "offset", "on", "only", "or", "order", "out", "outer", "overlaps", "overlay", "placing",
  "position", "precision", "primary", "real", "references", "returning", "right", "row",
  "select", "session_user", "setof", "similar", "smallint", "some", "substring", "symmetric",
  "system_user", "table", "tablesample", "then", "time", "timestamp", "to", "trailing",
  "treat", "trim", "true", "union", "unique", "user", "using", "values", "varchar",
  "variadic", "verbose", "when", "where", "window", "with", "xmlattributes", "xmlconcat",
  "xmlelement", "xmlexists", "xmlforest", "xmlnamespaces", "xmlparse", "xmlpi", "xmlroot",
  "xmlserialize", "xmltable"]

/-- A name with every quote doubled. -/
def doubleQuotes : List Char → List Char
  | [] => []
  | c :: cs => if c = '"' then '"' :: '"' :: doubleQuotes cs else c :: doubleQuotes cs

/-- A name between double quotes. -/
def doubleQuoted (name : String) : String :=
  String.ofList ('"' :: doubleQuotes name.toList ++ ['"'])

/-- A character that may start a bare name. -/
def startsPlain (c : Char) : Bool :=
  c.isLower || c == '_'

/-- A character that may stand in a bare name. -/
def isPlain (c : Char) : Bool :=
  c.isLower || c.isDigit || c == '_' || c == '$'

/-- The name can stand bare, keywords aside. -/
def isPlainName (name : String) : Bool :=
  match name.toList with
  | [] => false
  | c :: cs => startsPlain c && (c :: cs).all isPlain

/-- The name as an identifier, quoted only if it has to be. -/
def plainOrQuoted (name : String) : String :=
  if isPlainName name && !keywords.contains name then name else doubleQuoted name

end FreshTag.Catalog
