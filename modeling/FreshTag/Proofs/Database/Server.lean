/-
FreshTag/Proofs/Database/Server.lean

A server that runs the statements.  It holds schemas, functions and triggers,
where a trigger has a name on its table and calls one function.  Tables are not
among its objects: a statement about a trigger applies to whatever table it names.

The server reads the text of a statement (`effect?`) and refuses what it cannot
read, what names no schema or function, and a trigger that is there already.
Dropping a schema drops its functions and every trigger that calls one of them.
That a trigger calls a function, a function is in a schema, and no table has two
triggers of one name, is part of a `Server`.

The list of the triggers that call the function of a schema comes in any order
`le`, with the names as the server quotes them.  Dropping such a trigger by its
quoted names drops that one and no other (`run_dropSpelled`).
-/
import FreshTag.Proofs.Database.Phrases
import FreshTag.Proofs.Database.Plans
import Mathlib.Data.List.Nodup

namespace FreshTag.Database

open FreshTag.Catalog (Table)

/-! ### Effects of statements -/

/-- A function with the schema that it is in. -/
structure FunctionName where
  schema : String
  name : String
  deriving DecidableEq, Repr

/-- A trigger, by its table and its name. -/
structure TriggerName where
  schema : String
  table : String
  name : String
  deriving DecidableEq, Repr

/-- What a statement does. -/
inductive Effect where
  | createSchema (schema : String)
  | createFunction (function : FunctionName)
  | createTrigger (trigger : TriggerName) (function : FunctionName)
  | dropTrigger (trigger : TriggerName)
  | dropSchema (schema : String)
  deriving DecidableEq, Repr

/-- The forms of the statements, each with what it does with the names in its places. -/
def forms : List (List Part × (List String → Option Effect)) := [
  (createSchemaForm, fun
    | [schema] => some (.createSchema schema)
    | _ => none),
  (createFunctionForm, fun
    | [schema, name] => some (.createFunction ⟨schema, name⟩)
    | _ => none),
  (createTriggerForm, fun
    | [trigger, schema, table, function, name] =>
      some (.createTrigger ⟨schema, table, trigger⟩ ⟨function, name⟩)
    | _ => none),
  (dropTriggerForm, fun
    | [trigger, schema, table] => some (.dropTrigger ⟨schema, table, trigger⟩)
    | _ => none),
  (dropSchemaForm, fun
    | [schema] => some (.dropSchema schema)
    | _ => none)]

/-- What the statement with this text does, if it has one of the forms. -/
def effect? (text : String) : Option Effect := do
  let tokens ← tokens? text
  forms.findSome? fun form => (fill form.1 tokens).bind form.2

/-! ### The objects of a server -/

/-- Schemas, functions and triggers, the triggers with the functions that they call. -/
@[ext]
structure Server where
  schemas : List String
  functions : List FunctionName
  triggers : List (TriggerName × FunctionName)
  placed : ∀ f ∈ functions, f.schema ∈ schemas
  bound : ∀ b ∈ triggers, b.2 ∈ functions
  unique : (triggers.map Prod.fst).Nodup

namespace Server

/-- The server without any objects. -/
def empty : Server where
  schemas := []
  functions := []
  triggers := []
  placed := nofun
  bound := nofun
  unique := .nil

def withSchema (d : Server) (schema : String) : Server where
  schemas := if schema ∈ d.schemas then d.schemas else schema :: d.schemas
  functions := d.functions
  triggers := d.triggers
  placed f hf := by
    split
    · exact d.placed f hf
    · exact List.mem_cons_of_mem _ (d.placed f hf)
  bound := d.bound
  unique := d.unique

def withFunction (d : Server) (function : FunctionName) (h : function.schema ∈ d.schemas) :
    Server where
  schemas := d.schemas
  functions := if function ∈ d.functions then d.functions else function :: d.functions
  triggers := d.triggers
  placed f hf := by
    split at hf
    · exact d.placed f hf
    · rcases List.mem_cons.mp hf with rfl | hf
      · exact h
      · exact d.placed f hf
  bound b hb := by
    split
    · exact d.bound b hb
    · exact List.mem_cons_of_mem _ (d.bound b hb)
  unique := d.unique

def withTrigger (d : Server) (trigger : TriggerName) (function : FunctionName)
    (h : function ∈ d.functions) (hnew : trigger ∉ d.triggers.map Prod.fst) : Server where
  schemas := d.schemas
  functions := d.functions
  triggers := (trigger, function) :: d.triggers
  placed := d.placed
  bound b hb := by
    rcases List.mem_cons.mp hb with rfl | hb
    · exact h
    · exact d.bound b hb
  unique := List.nodup_cons.mpr ⟨hnew, d.unique⟩

/-- The server without the triggers of the list. -/
def without (d : Server) (triggers : List TriggerName) : Server where
  schemas := d.schemas
  functions := d.functions
  triggers := d.triggers.filter fun b => b.1 ∉ triggers
  placed := d.placed
  bound b hb := d.bound b (List.mem_filter.mp hb).1
  unique := d.unique.sublist (List.filter_sublist.map Prod.fst)

/-- The server without a schema, its functions and the triggers that call them. -/
def withoutSchema (d : Server) (schema : String) : Server where
  schemas := d.schemas.filter (· ≠ schema)
  functions := d.functions.filter (·.schema ≠ schema)
  triggers := d.triggers.filter (·.2.schema ≠ schema)
  placed f hf := by
    obtain ⟨hf, hne⟩ := List.mem_filter.mp hf
    exact List.mem_filter.mpr ⟨d.placed f hf, hne⟩
  bound b hb := by
    obtain ⟨hb, hne⟩ := List.mem_filter.mp hb
    exact List.mem_filter.mpr ⟨d.bound b hb, hne⟩
  unique := d.unique.sublist (List.filter_sublist.map Prod.fst)

/-- Does what a statement does, unless it cannot be done. -/
def perform (d : Server) : Effect → Except String Server
  | .createSchema schema => .ok (d.withSchema schema)
  | .createFunction f =>
    if h : f.schema ∈ d.schemas then .ok (d.withFunction f h)
    else .error ("schema does not exist: " ++ f.schema)
  | .createTrigger t f =>
    if h : f ∈ d.functions then
      if hnew : t ∉ d.triggers.map Prod.fst then .ok (d.withTrigger t f h hnew)
      else .error ("trigger exists: " ++ t.name)
    else .error ("function does not exist: " ++ f.name)
  | .dropTrigger t => .ok (d.without [t])
  | .dropSchema schema => .ok (d.withoutSchema schema)

/-- Runs a statement. -/
def execute (d : Server) (text : String) : Except String Server :=
  match effect? text with
  | some effect => d.perform effect
  | none => .error "syntax error"

/-- What the server answers, and what it holds then; a refusal changes nothing. -/
def answer (d : Server) : Except String Server → Except String Unit × Server
  | .ok d' => (.ok (), d')
  | .error cause => (.error cause, d)

/-- The triggers that call the trigger function of a schema. -/
def boundTo (d : Server) (schema : String) : List TriggerName :=
  (d.triggers.filter fun b => b.2 = ⟨schema, functionName⟩).map Prod.fst

end Server

/-- A trigger as the server writes it. -/
def spelled (t : TriggerName) : Trigger where
  table := quoteIdent t.schema ++ "." ++ quoteIdent t.table
  name := quoteIdent t.name

/-- The database that such a server is; the triggers of a schema are listed in the order `le`. -/
def served (le : Trigger → Trigger → Bool) : Database (StateM Server) where
  tables := pure (.ok [])
  triggers schema d :=
    (.ok (((d.boundTo schema).mergeSort fun t u => le (spelled t) (spelled u)).map spelled), d)
  run c d := d.answer (d.execute c.text)
  listen _ := pure (.ok ())
  listenAgain _ := pure (.ok ())

/-! ### Statements and their effects -/

/-- The two words with which a form begins. -/
def Opens (form : List Part) (a b : String) : Prop :=
  ∃ rest, form = .keyword a :: .keyword b :: rest

/-- No two forms begin with the same two words. -/
theorem forms_apart : forms.Pairwise fun x y => x.1.take 2 ≠ y.1.take 2 := by
  decide

theorem opens_of_mem {form : List Part} {build : List String → Option Effect}
    (h : (form, build) ∈ forms) : ∃ a b, Opens form a b := by
  simp only [forms, List.mem_cons, List.not_mem_nil, or_false, Prod.mk.injEq] at h
  rcases h with ⟨rfl, -⟩ | ⟨rfl, -⟩ | ⟨rfl, -⟩ | ⟨rfl, -⟩ | ⟨rfl, -⟩ <;> exact ⟨_, _, _, rfl⟩

/-- A keyword in a form is a word of the statement. -/
theorem word_of_fill {w : String} {parts : List Part} {ts : List Token} {names : List String}
    (h : fill (.keyword w :: parts) ts = some names) :
    ∃ us, ts = .word w :: us ∧ fill parts us = some names := by
  rcases ts with - | ⟨tok, us⟩
  · simp [fill] at h
  · cases tok with
    | word text =>
      rw [fill] at h
      split at h
      · next heq => exact ⟨us, by rw [heq], h⟩
      · cases h
    | quoted name => simp [fill] at h
    | symbol c => simp [fill] at h
    | body text => simp [fill] at h

theorem words_of_fill {form : List Part} {a b : String} (hform : Opens form a b)
    {ts : List Token} {names : List String} (h : fill form ts = some names) :
    ts.take 2 = [.word a, .word b] := by
  obtain ⟨rest, rfl⟩ := hform
  obtain ⟨us, rfl, hus⟩ := word_of_fill h
  obtain ⟨vs, rfl, -⟩ := word_of_fill hus
  rfl

/-- A statement fills no form but its own. -/
theorem form_unique {form other : List Part} {a b c d : String} (hform : Opens form a b)
    (hother : Opens other c d) {ts : List Token} {names others : List String}
    (h : fill form ts = some names) (h' : fill other ts = some others) :
    form.take 2 = other.take 2 := by
  have hwords := (words_of_fill hform h).symm.trans (words_of_fill hother h')
  simp only [List.cons.injEq, Token.word.injEq, and_true] at hwords
  obtain ⟨rest, rfl⟩ := hform
  obtain ⟨rest', rfl⟩ := hother
  obtain ⟨rfl, rfl⟩ := hwords
  rfl

/-- A statement of one of the forms does what belongs to the form. -/
theorem effect?_of_phrase {text : String} {form : List Part} {names : List String}
    {build : List String → Option Effect} {effect : Effect} (hform : (form, build) ∈ forms)
    (h : Phrase text.toList form names) (hbuild : build names = some effect) :
    effect? text = some effect := by
  obtain ⟨ts, htokens, hfill⟩ := h.tokens
  obtain ⟨a, b, hopens⟩ := opens_of_mem hform
  -- on the forms that are still to be tried; those before do not begin with its two words
  have hfind : ∀ fs : List (List Part × (List String → Option Effect)), fs <:+ forms →
      (form, build) ∈ fs →
      fs.findSome? (fun form => (fill form.1 ts).bind form.2) = some effect := by
    intro fs hsuffix hmem
    induction fs with
    | nil => cases hmem
    | cons first fs ih =>
      rcases List.mem_cons.mp hmem with rfl | hmem
      · rw [List.findSome?_cons]
        simp only [hfill, Option.bind_some, hbuild]
      · have hfirst : first ∈ forms := hsuffix.subset List.mem_cons_self
        obtain ⟨c, d, hother⟩ := opens_of_mem (show (first.1, first.2) ∈ forms from hfirst)
        have hnone : fill first.1 ts = none := by
          rcases hother' : fill first.1 ts with - | others
          · rfl
          · have hapart := (forms_apart.sublist hsuffix.sublist)
            exact absurd (form_unique hother hopens hother' hfill)
              ((List.pairwise_cons.mp hapart).1 _ hmem)
        rw [List.findSome?_cons, hnone]
        exact ih ((List.suffix_cons first fs).trans hsuffix) hmem
  rw [effect?, htokens]
  exact hfind forms List.suffix_rfl hform

/-! ### Statements on a server -/

section

variable (le : Trigger → Trigger → Bool) (d : Server)

/-- A command of which the statement has a known effect. -/
theorem run_of_effect? {c : Command} {effect : Effect} {d' : Server}
    (h : effect? c.text = some effect) (hperform : d.perform effect = .ok d') :
    (served le).run c d = (.ok (), d') := by
  have hexecute : d.execute c.text = .ok d' := by
    rw [Server.execute, h]
    exact hperform
  show d.answer (d.execute c.text) = _
  rw [hexecute]
  rfl

theorem run_createSchema (schema : String) :
    (served le).run (.createSchema schema) d = (.ok (), d.withSchema schema) :=
  run_of_effect? le d (effect?_of_phrase (List.mem_of_getElem? (i := 0) rfl)
    (phrase_createSchema schema) rfl) rfl

theorem run_createFunction {schema : String} (chunk : Nat) (h : schema ∈ d.schemas) :
    (served le).run (.createFunction schema chunk) d =
      (.ok (), d.withFunction ⟨schema, functionName⟩ h) :=
  run_of_effect? le d (effect?_of_phrase (List.mem_of_getElem? (i := 1) rfl)
    (phrase_createFunction schema chunk) rfl) (dif_pos h)

theorem run_dropSchema (schema : String) :
    (served le).run (.dropSchema schema) d = (.ok (), d.withoutSchema schema) :=
  run_of_effect? le d (effect?_of_phrase (List.mem_of_getElem? (i := 4) rfl)
    (phrase_dropSchema schema) rfl) rfl

/-- A trigger that is given by texts that mean its names is dropped. -/
theorem run_dropTrigger {trigger : Trigger} {t : TriggerName}
    (hname : Spells trigger.name t.name) (htable : SpellsTable trigger.table t.schema t.table) :
    (served le).run (.dropTrigger trigger) d = (.ok (), d.without [t]) :=
  run_of_effect? le d (effect?_of_phrase (List.mem_of_getElem? (i := 3) rfl)
    (phrase_dropNamedTrigger hname htable) rfl) rfl

/-- A trigger is dropped by its names as the server writes them. -/
theorem run_dropSpelled (t : TriggerName) :
    (served le).run (.dropTrigger (spelled t)) d = (.ok (), d.without [t]) :=
  run_dropTrigger le d (spells_quoteIdent t.name)
    ⟨_, _, rfl, spells_quoteIdent t.schema, spells_quoteIdent t.table⟩

/-- The trigger that a listener creates on a table. -/
def triggerNameOf (t : Table) : TriggerName where
  schema := t.schema
  table := t.name
  name := t.schema ++ "_" ++ t.name ++ "_" ++ functionName

theorem run_dropTriggerOf {t : Table} (htable : SpellsTable t.id t.schema t.name) :
    (served le).run (.dropTrigger (triggerOf t)) d = (.ok (), d.without [triggerNameOf t]) :=
  run_dropTrigger le d (spells_triggerName t) htable

theorem run_createTrigger {t : Table} (htable : SpellsTable t.id t.schema t.name)
    {schema : String} (hfunction : ⟨schema, functionName⟩ ∈ d.functions)
    (hnew : triggerNameOf t ∉ d.triggers.map Prod.fst) :
    (served le).run (.createTrigger t schema) d =
      (.ok (), d.withTrigger (triggerNameOf t) ⟨schema, functionName⟩ hfunction hnew) :=
  run_of_effect? le d (effect?_of_phrase (List.mem_of_getElem? (i := 2) rfl)
    (phrase_createTrigger htable schema) rfl) (by
      rw [Server.perform, dif_pos hfunction]
      exact dif_pos hnew)

end

/-! ### What statements leave behind -/

namespace Server

theorem mem_boundTo_iff {d : Server} {t : TriggerName} {schema : String} :
    t ∈ d.boundTo schema ↔ (t, ⟨schema, functionName⟩) ∈ d.triggers := by
  simp [boundTo]

/-- A trigger calls one function only. -/
theorem function_unique {d : Server} {t : TriggerName} {f g : FunctionName}
    (hf : (t, f) ∈ d.triggers) (hg : (t, g) ∈ d.triggers) : f = g :=
  congrArg Prod.snd (List.inj_on_of_nodup_map d.unique hf hg rfl)

theorem without_nil (d : Server) : d.without [] = d := by
  ext1
  · rfl
  · rfl
  · exact List.filter_eq_self.mpr fun b _ => by simp

theorem without_without (d : Server) (ts us : List TriggerName) :
    (d.without ts).without us = d.without (ts ++ us) := by
  ext1
  · rfl
  · rfl
  · show (d.triggers.filter _).filter _ = d.triggers.filter _
    rw [List.filter_filter]
    refine List.filter_congr fun b _ => ?_
    simp [not_or, Bool.and_comm]

end Server

end FreshTag.Database
