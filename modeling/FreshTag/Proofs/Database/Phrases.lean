/-
FreshTag/Proofs/Database/Phrases.lean

The statements that install and remove triggers, as a server reads them.  Each of
them has a form, a fixed sequence of keywords and symbols with places for names;
and whatever the names are, its text reads as that form with these names in the
places.

For the statements about a trigger the table has to be given by an identifier that
means it (`SpellsTable`), as `Table.identifier` does.
-/
import FreshTag.Database.Statements
import FreshTag.Proofs.Database.Lexing

namespace FreshTag.Database

open FreshTag.Catalog (Table doubleQuoted)

/-! ### The statements -/

/-- A name with the schema that it is in. -/
def qualified : List Part :=
  [.name, .symbol '.', .name]

def createSchemaForm : List Part :=
  keywordParts ["create", "schema", "if", "not", "exists"] ++ [.name]

def dropSchemaForm : List Part :=
  keywordParts ["drop", "schema", "if", "exists"] ++ .name :: keywordParts ["cascade"]

def createFunctionForm : List Part :=
  keywordParts ["create", "or", "replace", "function"] ++ (qualified ++ ([.symbol '(', .symbol ')'] ++
    (keywordParts ["returns", "trigger", "language", "plpgsql", "as"] ++ [.body])))

def dropTriggerForm : List Part :=
  keywordParts ["drop", "trigger", "if", "exists"] ++ .name :: (keywordParts ["on"] ++ qualified)

def createTriggerForm : List Part :=
  keywordParts ["create", "trigger"] ++
    .name :: (keywordParts ["after", "insert", "or", "update", "or", "delete", "on"] ++ (qualified ++
      (keywordParts ["for", "each", "row", "execute", "procedure"] ++ (qualified ++
        [.symbol '(', .symbol ')']))))

/-- The text is an identifier with a schema, and means the table. -/
def SpellsTable (text schema name : String) : Prop :=
  ∃ a b, text = a ++ "." ++ b ∧ Spells a schema ∧ Spells b name

theorem spellsTable_identifier (schema name : String) :
    SpellsTable (Catalog.Table.identifier schema name) schema name :=
  ⟨_, _, rfl, spells_plainOrQuoted schema, spells_plainOrQuoted name⟩

theorem spells_functionName : Spells functionName functionName :=
  spells_plain rfl rfl

theorem phrase_createSchema (schema : String) :
    Phrase (createSchema schema).toList createSchemaForm [schema] := by
  unfold createSchema
  rw [String.toList_append]
  exact .keywords_append _ (by decide +kernel) (.name (spells_doubleQuoted schema))

theorem phrase_dropSchema (schema : String) :
    Phrase (dropSchema schema).toList dropSchemaForm [schema] := by
  have hcascade : Phrase " CASCADE".toList (keywordParts ["cascade"]) [] :=
    ⟨[], .word "edacsac".toList, [.word "cascade"], by decide +kernel, rfl, rfl⟩
  unfold dropSchema
  simp only [String.toList_append, List.append_assoc]
  exact .keywords_append _ (by decide +kernel)
    (.name_append (spells_doubleQuoted schema) rfl hcascade)

theorem phrase_table {table schema name : String} (h : SpellsTable table schema name) :
    Phrase table.toList qualified [schema, name] := by
  obtain ⟨a, b, rfl, ha, hb⟩ := h
  simp only [String.toList_append, List.append_assoc]
  refine .name_append ha rfl ?_
  exact .words_append (f := [.symbol '.']) (p := ['.']) [.symbol '.'] rfl rfl (.name hb)

theorem phrase_table_append {table schema name : String} {q : List Char} {rest : List Part}
    {others : List String} (h : SpellsTable table schema name) (hends : endsName q = true)
    (hq : Phrase q rest others) :
    Phrase (table.toList ++ q) (qualified ++ rest) (schema :: name :: others) := by
  obtain ⟨a, b, rfl, ha, hb⟩ := h
  simp only [String.toList_append, List.append_assoc]
  refine .name_append ha rfl ?_
  exact .words_append (f := [.symbol '.']) (p := ['.']) [.symbol '.'] rfl rfl (.name_append hb hends hq)

theorem phrase_dropNamedTrigger {table trigger schema name t : String}
    (htrigger : Spells trigger t) (htable : SpellsTable table schema name) :
    Phrase (dropNamedTrigger table trigger).toList dropTriggerForm [t, schema, name] := by
  have hon : Phrase (" ON ".toList ++ table.toList) (keywordParts ["on"] ++ qualified)
      [schema, name] := .keywords_append _ (by decide +kernel) (phrase_table htable)
  unfold dropNamedTrigger
  simp only [String.toList_append, List.append_assoc]
  exact .keywords_append (p := "DROP TRIGGER IF EXISTS ".toList) ["drop", "trigger", "if", "exists"]
    (by decide +kernel) (.name_append htrigger rfl hon)

theorem spells_triggerName (t : Table) :
    Spells (triggerName t) (t.schema ++ "_" ++ t.name ++ "_" ++ functionName) :=
  spells_doubleQuoted _

/-- What stands behind the name of a function that is called without arguments. -/
theorem phrase_call {q : List Char} {rest : List Part} {others : List String}
    (hq : Phrase q rest others) :
    Phrase ("()".toList ++ q) ([.symbol '(', .symbol ')'] ++ rest) others :=
  .words_append [.symbol '(', .symbol ')'] (by decide +kernel) rfl hq

theorem phrase_functionCall {schema : String} {q : List Char} {rest : List Part}
    {others : List String} (hq : Phrase q rest others) :
    Phrase ((functionCall schema).toList ++ q)
      (qualified ++ ([.symbol '(', .symbol ')'] ++ rest)) (schema :: functionName :: others) := by
  have htable : SpellsTable (doubleQuoted schema ++ "." ++ functionName) schema functionName :=
    ⟨_, _, rfl, spells_doubleQuoted schema, spells_functionName⟩
  unfold functionCall
  rw [String.toList_append, List.append_assoc]
  exact phrase_table_append htable rfl (phrase_call hq)

theorem phrase_createTrigger {t : Table} {schema name : String}
    (htable : SpellsTable t.id schema name) (function : String) :
    Phrase (createTrigger t function).toList createTriggerForm
      [t.schema ++ "_" ++ t.name ++ "_" ++ functionName, schema, name, function, functionName] := by
  have hcall : Phrase ((functionCall function).toList ++ [])
      (qualified ++ ([.symbol '(', .symbol ')'] ++ [])) [function, functionName] :=
    phrase_functionCall ⟨[], .between, [], rfl, rfl, rfl⟩
  rw [List.append_nil] at hcall
  have hexecute : Phrase (" FOR EACH ROW EXECUTE PROCEDURE ".toList ++ (functionCall function).toList)
      (keywordParts ["for", "each", "row", "execute", "procedure"] ++ (qualified ++
        [.symbol '(', .symbol ')'])) [function, functionName] :=
    .keywords_append _ (by decide +kernel) hcall
  have hon : Phrase (" AFTER INSERT OR UPDATE OR DELETE ON ".toList ++ (t.id.toList ++
        (" FOR EACH ROW EXECUTE PROCEDURE ".toList ++ (functionCall function).toList)))
      (keywordParts ["after", "insert", "or", "update", "or", "delete", "on"] ++ (qualified ++
        (keywordParts ["for", "each", "row", "execute", "procedure"] ++ (qualified ++
          [.symbol '(', .symbol ')'])))) [schema, name, function, functionName] :=
    .keywords_append _ (by decide +kernel) (phrase_table_append htable rfl hexecute)
  unfold createTrigger
  simp only [String.toList_append, List.append_assoc]
  exact .keywords_append (p := "CREATE TRIGGER ".toList) ["create", "trigger"] (by decide +kernel)
    (.name_append (spells_triggerName t) rfl hon)

/-! ### The function -/

theorem step_body {c : Char} (h : c ≠ '$') (opening read : List Char) :
    (Mode.body opening read).step c = some ([], .body opening (c :: read)) := by
  have hmark : ('$' :: (opening ++ ['$'])).reverse.isPrefixOf (c :: read) = false := by
    rw [List.reverse_cons, List.reverse_append]
    show (('$' == c) && _) = false
    rw [beq_false_of_ne h.symm, Bool.false_and]
  rw [Mode.step, if_neg (by rw [hmark]; exact Bool.false_ne_true)]

theorem reads_body {cs : List Char} (h : '$' ∉ cs) (opening read : List Char) :
    Reads (.body opening read) cs [] (.body opening (cs.reverse ++ read)) := by
  induction cs generalizing read with
  | nil => exact .nil _
  | cons c cs ih =>
    rw [List.reverse_cons, List.append_assoc]
    exact .skip (step_body (fun hc => h (hc ▸ List.mem_cons_self)) opening read)
      (ih (fun hmem => h (List.mem_cons_of_mem c hmem)) _)

/-- A text between dollar quotes ends with the mark with which it begins. -/
theorem reads_mark {opening read : List Char} (hopening : '$' ∉ opening) (hread : '$' ∉ read) :
    Reads (.body opening read) ('$' :: (opening ++ ['$'])) [.body (String.ofList read.reverse)]
      .between := by
  have hmark : ('$' :: (opening ++ ['$'])).reverse = '$' :: (opening.reverse ++ ['$']) := by
    simp
  have hfirst : (Mode.body opening read).step '$' = some ([], .body opening ('$' :: read)) := by
    have hnot : ¬ ('$' :: (opening ++ ['$'])).reverse.isPrefixOf ('$' :: read) = true := by
      rw [List.isPrefixOf_iff_prefix, hmark, List.cons_prefix_cons]
      exact fun h => hread (h.2.subset (by simp))
    rw [Mode.step, if_neg hnot]
  have hlast : (Mode.body opening (opening.reverse ++ '$' :: read)).step '$' =
      some ([.body (String.ofList read.reverse)], .between) := by
    have hprefixed : ('$' :: (opening ++ ['$'])).reverse.isPrefixOf
        ('$' :: (opening.reverse ++ '$' :: read)) = true := by
      rw [List.isPrefixOf_iff_prefix, hmark, List.cons_prefix_cons]
      exact ⟨rfl, read, by simp⟩
    have hdrop : ('$' :: (opening.reverse ++ '$' :: read)).drop
        ('$' :: (opening ++ ['$'])).length = read := by
      rw [show '$' :: (opening.reverse ++ '$' :: read) =
        ('$' :: (opening.reverse ++ ['$'])) ++ read by simp]
      exact List.drop_left' (by simp)
    rw [Mode.step, if_pos hprefixed, hdrop]
  exact .skip hfirst ((reads_body hopening opening _).append (.cons hlast (.nil _)))

theorem dollar_not_mem_toString (n : Nat) : '$' ∉ (toString n).toList := by
  intro h
  rw [show (toString n).toList = Nat.toDigits 10 n by simp [toString, Nat.repr]] at h
  exact absurd (Nat.isDigit_of_mem_toDigits (by decide) (by decide) h) (by decide)

/-- The tag of the function's text. -/
def functionTag : List Char :=
  ['f', 'e', 'a', 't', 'u', 'r', 'e', 't', 'a', 'g']

section

-- a text of some hundred characters is taken apart as the list that it is made of
set_option maxRecDepth 20000

theorem reads_functionStart : ∃ read, '$' ∉ read ∧
    Reads .between functionStart.toList
      (["returns", "trigger", "language", "plpgsql", "as"].map .word) (.body functionTag read) := by
  have hlist : ∀ cs : List Char, '$' ∉ (cs.drop 49).reverse →
      Reads .between cs (["returns", "trigger", "language", "plpgsql", "as"].map .word)
        (.body functionTag (cs.drop 49).reverse) →
      ∃ read, '$' ∉ read ∧ Reads .between (String.ofList cs).toList
        (["returns", "trigger", "language", "plpgsql", "as"].map .word)
        (.body functionTag read) := fun cs hfree hreads =>
    ⟨_, hfree, String.toList_ofList.symm ▸ hreads⟩
  exact hlist _ (by decide +kernel) (by decide +kernel)

theorem dollar_not_mem_functionPaging : '$' ∉ functionPaging.toList := by
  have hlist : ∀ cs : List Char, '$' ∉ cs → '$' ∉ (String.ofList cs).toList :=
    fun cs h => String.toList_ofList.symm ▸ h
  exact hlist _ (by decide +kernel)

theorem functionEnd_eq : ∃ cs, '$' ∉ cs ∧
    functionEnd.toList = cs ++ '$' :: (functionTag ++ ['$']) := by
  have hlist : ∀ cs : List Char, '$' ∉ cs.take (cs.length - 12) →
      cs.drop (cs.length - 12) = '$' :: (functionTag ++ ['$']) →
      ∃ cs', '$' ∉ cs' ∧ (String.ofList cs).toList = cs' ++ '$' :: (functionTag ++ ['$']) :=
    fun cs hfree hmark => ⟨_, hfree, by
      rw [String.toList_ofList, ← hmark, List.take_append_drop]⟩
  exact hlist _ (by decide +kernel) (by decide +kernel)

end

/-- The text of the function stands between its marks, whatever the size of its pages. -/
theorem phrase_functionText (size : Nat) :
    Phrase (functionStart.toList ++ ((toString size).toList ++ (functionPaging.toList ++
      (channel.toList ++ functionEnd.toList))))
      (keywordParts ["returns", "trigger", "language", "plpgsql", "as"] ++ [.body]) [] := by
  obtain ⟨read, hread, hstart⟩ := reads_functionStart
  obtain ⟨cs, hcs, hend⟩ := functionEnd_eq
  have htext : '$' ∉ (toString size).toList ++ (functionPaging.toList ++ (channel.toList ++ cs)) := by
    rw [List.mem_append, List.mem_append, List.mem_append]
    exact not_or.mpr ⟨dollar_not_mem_toString size, not_or.mpr ⟨dollar_not_mem_functionPaging,
      not_or.mpr ⟨by decide +kernel, hcs⟩⟩⟩
  have hbody := reads_body htext functionTag read
  have hmark := reads_mark (show '$' ∉ functionTag by decide +kernel) fun h =>
    (List.mem_append.mp h).elim (fun h => htext (List.mem_reverse.mp h)) hread
  have hread := hstart.append (hbody.append hmark)
  rw [List.append_assoc, List.append_assoc, List.append_assoc, ← hend] at hread
  refine ⟨_, _, [], hread, rfl, ?_⟩
  rw [List.append_nil]
  exact fill_append (fill_keywordParts _) rfl

theorem phrase_createFunction (schema : String) (chunk : Nat) :
    Phrase (createFunction schema chunk).toList createFunctionForm [schema, functionName] := by
  unfold createFunction
  simp only [String.toList_append, List.append_assoc]
  exact .keywords_append (p := "CREATE OR REPLACE FUNCTION ".toList)
    ["create", "or", "replace", "function"] (by decide +kernel)
    (phrase_functionCall (phrase_functionText (clampChunk chunk)))

end FreshTag.Database
