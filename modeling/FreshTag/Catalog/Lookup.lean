/-
FreshTag/Catalog/Lookup.lean

A catalog answers which table a name means and which tables there are; either
question may fail.  Two catalogs never fail: a fixed list, searched in its
order, and a snapshot of rows read from a database.  The snapshot keeps one
table per identifier, the last row of it, and prefers a table whose identifier
is the name to one whose plain name it is.
-/
import FreshTag.Catalog.Table

namespace FreshTag.Catalog

/-- Reading the catalog failed. -/
structure QueryError where
  cause : String
  deriving DecidableEq, Repr, Inhabited

/-- The wording of a failure. -/
def QueryError.message (e : QueryError) : String :=
  "catalog query failed: " ++ e.cause

end Catalog

/-- What is known of the tables of a database. -/
structure Catalog where
  /-- the table that a name means -/
  lookup : String → Except Catalog.QueryError (Option Catalog.Table)
  /-- all tables -/
  tables : Except Catalog.QueryError (List Catalog.Table)
  /-- a name that means no table is logged -/
  logsMisses : Bool := false

namespace Catalog

/-! ### A fixed list -/

/-- The first table of the list that answers to the name. -/
def firstNamed (tables : List Table) (name : String) : Option Table :=
  tables.find? (·.answersTo name)

/-- The catalog of a fixed list of tables. -/
def fixed (tables : List Table) : Catalog where
  lookup name := .ok (firstNamed tables name)
  tables := .ok tables

/-! ### A snapshot -/

/-- A row of the catalog query. -/
structure Row where
  id : String
  schema : String
  name : String
  idColumn : Option String
  columnNames : List String
  columnTypes : List String
  deriving DecidableEq, Repr, Inhabited

/-- The table of a row; names and types of columns pair up to the shorter list. -/
def Row.table (r : Row) : Table where
  id := r.id
  schema := r.schema
  name := r.name
  idColumn := r.idColumn
  columns := (r.columnNames.zip r.columnTypes).foldl
    (fun columns (name, type) => columns.set name (.ofTypeName type)) {}

/-- Puts a table into a list in the order of identifiers, replacing one with the same. -/
def insertById (t : Table) : List Table → List Table
  | [] => [t]
  | u :: rest =>
    if u.id = t.id then t :: rest
    else if t.id < u.id then t :: u :: rest
    else u :: insertById t rest

/-- The tables of a list in the order of their identifiers, the last one of each. -/
def byId (tables : List Table) : List Table :=
  tables.foldl (fun sorted t => insertById t sorted) []

/-- The table with the identifier, else one with the plain name. -/
def bestNamed (tables : List Table) (name : String) : Option Table :=
  (tables.find? (·.id = name)).or (firstNamed tables name)

/-- The catalog of tables read from a database. -/
def snapshot (tables : List Table) : Catalog where
  lookup name := .ok (bestNamed (byId tables) name)
  tables := .ok (byId tables)
  logsMisses := true

/-- The statement that lists the tables of a database with their columns. -/
def tablesQuery : String := "
SELECT
    quote_ident(n.nspname) || '.' || quote_ident(c.relname) AS id,
    n.nspname::text AS schema_name,
    c.relname::text AS table_name,
    pk.attname::text AS id_column,
    COALESCE(cols.names, ARRAY[]::text[]) AS column_names,
    COALESCE(cols.types, ARRAY[]::text[]) AS column_types
FROM pg_catalog.pg_class c
JOIN pg_catalog.pg_namespace n ON n.oid = c.relnamespace
LEFT JOIN LATERAL (
    SELECT a.attname
    FROM pg_catalog.pg_index i
    JOIN pg_catalog.pg_attribute a
        ON a.attrelid = i.indrelid AND a.attnum = i.indkey[0]
    WHERE i.indrelid = c.oid AND i.indisprimary AND i.indnatts = 1
) pk ON true
LEFT JOIN LATERAL (
    SELECT
        array_agg(a.attname::text ORDER BY a.attnum) AS names,
        array_agg(t.typname::text ORDER BY a.attnum) AS types
    FROM pg_catalog.pg_attribute a
    JOIN pg_catalog.pg_type t ON t.oid = a.atttypid
    WHERE a.attrelid = c.oid AND a.attnum > 0 AND NOT a.attisdropped
) cols ON true
WHERE c.relkind IN ('r', 'p')
  AND n.nspname NOT IN ('pg_catalog', 'information_schema', 'pg_toast')
  AND n.nspname NOT LIKE 'pg_temp_%'
  AND n.nspname NOT LIKE 'pg_toast_temp_%'
ORDER BY n.nspname, c.relname
"

end Catalog

end FreshTag
