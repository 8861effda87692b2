import DocSync.Relation.Sql
import DocSync.Server.Dialogue

/-!
Triggers that publish the changes of a table on a notification channel.
-/

namespace DocSync.Triggers

/-- The name of the trigger function, which also begins the names of its triggers. -/
def functionName : String := "document_replicator_notify"

/-- The declarations of the function: the row after the change and before it, and their keys. -/
def declarations : List String :=
  ["DECLARE",
   "    new_row jsonb := CASE WHEN TG_OP = 'DELETE' THEN NULL ELSE to_jsonb(NEW) END;",
   "    old_row jsonb := CASE WHEN TG_OP = 'INSERT' THEN NULL ELSE to_jsonb(OLD) END;",
   "    new_key jsonb;",
   "    old_key jsonb;"]

/-- The body of the function: reads the keys and publishes the change. -/
def body : List String :=
  ["BEGIN",
   "    SELECT jsonb_object_agg(k, COALESCE(new_row, old_row) -> k), jsonb_object_agg(k, old_row -> k)",
   "      INTO new_key, old_key",
   "      FROM unnest(TG_ARGV[1:TG_NARGS - 1]) AS k;",
   "    PERFORM pg_notify(TG_ARGV[0], jsonb_build_object(",
   "        'table', TG_TABLE_NAME,",
   "        'kind', lower(TG_OP),",
   "        'primary_key_values', new_key,",
   "        'old_primary_key_values',",
   "            CASE WHEN TG_OP = 'UPDATE' AND old_key IS DISTINCT FROM new_key THEN old_key ELSE NULL END,",
   "        'transaction_id', txid_current()",
   "    )::text);",
   "    RETURN NULL;",
   "END;"]

/-- Defines the function in a schema.  Its first argument names the channel, the others the columns of
the primary key. -/
def functionSql (schema : String) : String :=
  "\n".intercalate <|
    ["CREATE OR REPLACE FUNCTION " ++ Sql.qualified schema functionName ++ "() RETURNS trigger AS $$"]
      ++ declarations ++ body ++ ["$$ LANGUAGE plpgsql"]

/-- Puts the trigger of a table in place of the one it had. -/
def triggerSql (schema table channel : String) (primaryKey : List String) : String :=
  let trigger := Sql.ident (functionName ++ "_" ++ table)
  let place := Sql.qualified schema table
  "DROP TRIGGER IF EXISTS " ++ trigger ++ " ON " ++ place ++ ";\n"
    ++ "CREATE TRIGGER " ++ trigger ++ " AFTER INSERT OR UPDATE OR DELETE ON " ++ place
    ++ " FOR EACH ROW EXECUTE FUNCTION " ++ Sql.qualified schema functionName
    ++ "(" ++ Sql.commaSeparated ((channel :: primaryKey).map Sql.literal) ++ ")"

/-- Installs the function, and then the trigger of each table with its primary key. -/
def install (schema channel : String) (tables : List (String × List String)) : Dialogue Unit := do
  Dialogue.execute "Failed to create notify trigger function" (functionSql schema)
  tables.forM fun (table, primaryKey) =>
    Dialogue.execute ("Failed to create notify trigger on " ++ table)
      (triggerSql schema table channel primaryKey)

end DocSync.Triggers
