/-
FreshTag/Database/Statements.lean

The text of the statements that install and remove the triggers.  A schema of its own
holds one trigger function, and every watched table gets one trigger that
calls it.  Dropping the schema drops the function, and with it every trigger
that still calls it.

The function publishes a changed row on the channel `table_update` as JSON
text, cut into pages of at most `chunk` characters, where `chunk` is brought
into the range from 1 to `greatestChunk` (`clampChunk_mem`).

The schema is always quoted; tables are written by their identifier, and the
name of a trigger is always quoted.
-/
import FreshTag.Catalog.Table

namespace FreshTag.Database

open FreshTag.Catalog (Table doubleQuoted)

/-- The channel that changes are published on. -/
def channel : String := "table_update"

/-- The name of the trigger function. -/
def functionName : String := "notify_event"

/-- The greatest page, in characters of the row, that fits one message: the limit of a message is
8000 bytes, a character takes up to four, and about 700 go to what stands around the page. -/
def greatestChunk : Nat := 1800

/-- A page size in the range that fits. -/
def clampChunk (chunk : Nat) : Nat :=
  max 1 (min chunk greatestChunk)

theorem clampChunk_mem (chunk : Nat) : 1 ≤ clampChunk chunk ∧ clampChunk chunk ≤ greatestChunk := by
  unfold clampChunk greatestChunk
  omega

theorem clampChunk_eq {chunk : Nat} (h : 1 ≤ chunk) (h' : chunk ≤ greatestChunk) :
    clampChunk chunk = chunk := by
  unfold clampChunk greatestChunk at *
  omega

/-! ### Schema and function -/

/-- Creates the schema. -/
def createSchema (schema : String) : String :=
  "CREATE SCHEMA IF NOT EXISTS " ++ doubleQuoted schema

/-- Drops the schema with all that depends on it. -/
def dropSchema (schema : String) : String :=
  "DROP SCHEMA IF EXISTS " ++ doubleQuoted schema ++ " CASCADE"

/-- The function with its schema. -/
def functionCall (schema : String) : String :=
  doubleQuoted schema ++ "." ++ functionName ++ "()"

/-- The text of the function between its name and its page size. -/
def functionStart : String := " RETURNS trigger
LANGUAGE plpgsql AS $featuretag$
DECLARE
    row_data   text;
    old_xmin   text;
    new_xmin   text;
    digest     text;
    chunk_size constant integer := "

/-- The text of the function between its page size and the channel. -/
def functionPaging : String := ";
    page_count integer;
    page_index integer := 1;
BEGIN
    IF TG_OP = 'DELETE' THEN
        row_data := row_to_json(OLD)::text;
    ELSE
        row_data := row_to_json(NEW)::text;
    END IF;

    IF TG_OP IN ('UPDATE', 'DELETE') THEN
        old_xmin := OLD.xmin::text;
    END IF;
    IF TG_OP IN ('INSERT', 'UPDATE') THEN
        new_xmin := NEW.xmin::text;
    END IF;

    digest := md5(row_data || clock_timestamp()::text || txid_current()::text);
    page_count := greatest(ceil(length(row_data)::numeric / chunk_size)::integer, 1);

    WHILE page_index <= page_count LOOP
        PERFORM pg_notify('"

/-- The text of the function behind the channel. -/
def functionEnd : String := "', json_build_object(
            'id', quote_ident(TG_TABLE_SCHEMA) || '.' || quote_ident(TG_TABLE_NAME),
            'schema', TG_TABLE_SCHEMA,
            'table', TG_TABLE_NAME,
            'action', TG_OP,
            'old_xmin', old_xmin,
            'new_xmin', new_xmin,
            'md5', digest,
            'raw_data', page_count || ':' || page_index || ':'
                || substr(row_data, (page_index - 1) * chunk_size + 1, chunk_size)
        )::text);
        page_index := page_index + 1;
    END LOOP;

    RETURN NULL;
END;
$featuretag$"

/-- Creates the trigger function. -/
def createFunction (schema : String) (chunk : Nat) : String :=
  "CREATE OR REPLACE FUNCTION " ++ functionCall schema ++ functionStart ++
    toString (clampChunk chunk) ++ functionPaging ++ channel ++ functionEnd

/-! ### Triggers -/

/-- The quoted name of the trigger of a table. -/
def triggerName (t : Table) : String :=
  doubleQuoted (t.schema ++ "_" ++ t.name ++ "_" ++ functionName)

/-- Drops a trigger of which name and table are given as identifiers. -/
def dropNamedTrigger (tableId trigger : String) : String :=
  "DROP TRIGGER IF EXISTS " ++ trigger ++ " ON " ++ tableId

/-- Drops the trigger of a table. -/
def dropTrigger (t : Table) : String :=
  dropNamedTrigger t.id (triggerName t)

/-- Creates the trigger of a table. -/
def createTrigger (t : Table) (schema : String) : String :=
  "CREATE TRIGGER " ++ triggerName t ++ " AFTER INSERT OR UPDATE OR DELETE ON " ++ t.id ++
    " FOR EACH ROW EXECUTE PROCEDURE " ++ functionCall schema

/-- Lists table and name of every trigger that calls the function in schema `$1`. -/
def installedTriggers : String := "
SELECT
    quote_ident(n.nspname) || '.' || quote_ident(c.relname) AS table_id,
    quote_ident(t.tgname) AS trigger_name
FROM pg_catalog.pg_trigger t
JOIN pg_catalog.pg_class c ON c.oid = t.tgrelid
JOIN pg_catalog.pg_namespace n ON n.oid = c.relnamespace
JOIN pg_catalog.pg_proc p ON p.oid = t.tgfoid
JOIN pg_catalog.pg_namespace pn ON pn.oid = p.pronamespace
WHERE NOT t.tgisinternal
  AND p.proname = 'notify_event'
  AND pn.nspname = $1
ORDER BY 1, 2
"

end FreshTag.Database
