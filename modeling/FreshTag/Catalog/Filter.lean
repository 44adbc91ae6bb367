/-
FreshTag/Catalog/Filter.lean

Which tables are watched.  Entries name schemas or tables and are compared
without regard to case.  An entry matches a table if it is the name of its
schema, its identifier or its plain name.  Exclusion wins, and without any
entry to include, every table that is not excluded is watched.
-/
import FreshTag.Catalog.Table
import FreshTag.Text.Lowercase
import FreshTag.Text.Space

namespace FreshTag.Catalog

/-- Names of schemas and tables to include and to exclude, trimmed and in lower case. -/
structure Filter where
  included : List String := []
  excluded : List String := []
  deriving DecidableEq, Repr, Inhabited

namespace Filter

/-- Entries in the form in which they are compared; blank ones are left out. -/
def normalized (entries : List String) : List String :=
  (entries.map fun entry => Text.lower (Text.trim entry)).filter (· ≠ "")

/-- The filter of two lists of entries. -/
def ofEntries (included excluded : List String) : Filter :=
  { included := normalized included, excluded := normalized excluded }

/-- The filter that admits every table. -/
def all : Filter := {}

/-- The names under which an entry finds the table. -/
def names (t : Table) : List String :=
  [Text.lower t.schema, Text.lower t.id, Text.lower t.qualifiedName]

/-- An entry of the list matches the table. -/
def lists (entries : List String) (t : Table) : Bool :=
  (names t).any entries.contains

/-- The table is watched. -/
def admits (f : Filter) (t : Table) : Bool :=
  !lists f.excluded t && (f.included.isEmpty || lists f.included t)

end Filter

end FreshTag.Catalog
