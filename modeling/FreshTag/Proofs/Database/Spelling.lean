/-
FreshTag/Proofs/Database/Spelling.lean

What a name can do to the text it is written into.  An identifier tells where it
ends, by the first character that cannot go on with it, so the same text is never
split in two ways into an identifier and a rest (`Spells.append_inj`), and an
identifier means one name only (`Spells.unique`).

So a name stays one token wherever it stands.  Each statement reads as its form,
token by token, with the names that were put into it in the places for names and
with no other ones (`names_stay_names`), and the identifiers of two tables are
different texts.
-/
import FreshTag.Proofs.Database.Phrases

namespace FreshTag.Database

open FreshTag.Catalog (Table plainOrQuoted)

/-! ### Where an identifier ends -/

namespace Reads

variable {m m' m'' : Mode} {p q : List Char} {ts us : List Token}

/-- Reading a text goes through each of its beginnings. -/
theorem of_append (h : Reads m p ts m') (h' : Reads m (p ++ q) us m'') :
    ∃ vs, Reads m' q vs m'' ∧ us = ts ++ vs := by
  induction p generalizing m ts us with
  | nil =>
    obtain ⟨rfl, rfl⟩ := Prod.mk.inj (Option.some.inj h)
    exact ⟨us, h', rfl⟩
  | cons c p ih =>
    obtain ⟨first, next, rest, hstep, hrest, rfl⟩ := h.uncons
    obtain ⟨first', next', rest', hstep', hrest', rfl⟩ := h'.uncons
    obtain ⟨rfl, rfl⟩ := Prod.mk.inj (Option.some.inj (hstep.symm.trans hstep'))
    obtain ⟨vs, hvs, rfl⟩ := ih hrest hrest'
    exact ⟨vs, hvs, (List.append_assoc ..).symm⟩

/-- The character behind a word or a name gives it out. -/
theorem ne_nil_of_pending {tok : Token} (hm : m.pending = [tok]) (hends : endsName p = true)
    (h : Reads m p ts m') : ts ≠ [] := by
  rcases p with - | ⟨c, p⟩
  · exact absurd hends Bool.false_ne_true
  obtain ⟨first, next, rest, hstep, -, rfl⟩ := h.uncons
  rw [Mode.step_of_endsName hm hends, Mode.leave, hm] at hstep
  obtain ⟨⟨vs, mode⟩, -, heq⟩ := Option.map_eq_some_iff.mp hstep
  obtain ⟨rfl, -⟩ := Prod.mk.inj heq
  exact List.cons_ne_nil tok (vs ++ rest)

end Reads

namespace Spells

variable {a b x y : String} {p q : List Char}

/-- An identifier means one name. -/
theorem unique (hx : Spells a x) (hy : Spells a y) : x = y := by
  obtain ⟨m, tok, hreads, hm, htok⟩ := hx
  obtain ⟨m', tok', hreads', hm', htok'⟩ := hy
  obtain ⟨-, rfl⟩ := Prod.mk.inj (Option.some.inj (hreads.symm.trans hreads'))
  obtain rfl : tok = tok' := List.head_eq_of_cons_eq (hm.symm.trans hm')
  exact Option.some.inj (htok.symm.trans htok')

/-- No identifier goes on behind one that has ended. -/
theorem nil_of_append (ha : Spells a x) (hb : Spells b y) {rest : List Char}
    (h : b.toList = a.toList ++ rest) (hends : endsName (rest ++ q) = true) : rest = [] := by
  obtain ⟨m, tok, hreads, hm, -⟩ := ha
  obtain ⟨m', tok', hreads', -, -⟩ := hb
  rcases rest with - | ⟨c, cs⟩
  · rfl
  · rw [h] at hreads'
    -- the longer one gives nothing out, but the end of the shorter one would
    obtain ⟨vs, hvs, hnil⟩ := hreads.of_append hreads'
    have hends : endsName (c :: cs) = true := hends
    exact absurd hnil.symm (hvs.ne_nil_of_pending hm hends)

/-- A text is split in one way only into an identifier and what ends it. -/
theorem append_inj (ha : Spells a x) (hb : Spells b y) (hp : endsName p = true)
    (hq : endsName q = true) (h : a.toList ++ p = b.toList ++ q) : a = b ∧ p = q := by
  rcases List.append_eq_append_iff.mp h with ⟨rest, hab, hpq⟩ | ⟨rest, hba, hqp⟩
  · obtain rfl : rest = [] := ha.nil_of_append hb hab (hpq ▸ hp)
    rw [List.append_nil] at hab
    exact ⟨String.toList_inj.mp hab.symm, hpq⟩
  · obtain rfl : rest = [] := hb.nil_of_append ha hba (hqp ▸ hq)
    rw [List.append_nil] at hba
    exact ⟨String.toList_inj.mp hba, hqp.symm⟩

end Spells

theorem plainOrQuoted_inj {x y : String} (h : plainOrQuoted x = plainOrQuoted y) : x = y :=
  (spells_plainOrQuoted x).unique (h ▸ spells_plainOrQuoted y)

/-- So is a text that begins with the identifier of a table. -/
theorem identifier_append_inj {schema name schema' name' : String} {p q : List Char}
    (hp : endsName p = true) (hq : endsName q = true)
    (h : (Table.identifier schema name).toList ++ p = (Table.identifier schema' name').toList ++ q) :
    (schema = schema' ∧ name = name') ∧ p = q := by
  unfold Table.identifier at h
  simp only [String.toList_append, List.append_assoc] at h
  obtain ⟨hschema, h⟩ := (spells_plainOrQuoted schema).append_inj (spells_plainOrQuoted schema')
    rfl rfl h
  have hname := List.append_cancel_left h
  obtain ⟨hname, hpq⟩ := (spells_plainOrQuoted name).append_inj (spells_plainOrQuoted name')
    hp hq hname
  exact ⟨⟨plainOrQuoted_inj hschema, plainOrQuoted_inj hname⟩, hpq⟩

theorem identifier_inj {schema name schema' name' : String}
    (h : Table.identifier schema name = Table.identifier schema' name') :
    schema = schema' ∧ name = name' :=
  (identifier_append_inj (p := [':']) (q := [':']) rfl rfl
    (congrArg (String.toList · ++ [':']) h)).1

/-! ### Statements with names in them -/

/-- The names that a server finds in the places of the form, if the statement has one token for each
part of it.  It takes no empty name. -/
def namesAs (form : List Part) (statement : String) : Option (List String) := do
  let tokens ← tokens? statement
  if .quoted "" ∈ tokens then none else fill form tokens

/-- A name between quotes stands in a place for names. -/
theorem mem_of_fill {form : List Part} {ts : List Token} {names : List String}
    (h : fill form ts = some names) {name : String} (hmem : .quoted name ∈ ts) : name ∈ names := by
  induction form, ts using fill.induct generalizing names with
  | case1 => cases hmem
  | case2 w parts tokens ih =>
    rw [fill, if_pos rfl] at h
    rcases List.mem_cons.mp hmem with heq | hmem
    · cases heq
    · exact ih h hmem
  | case3 w parts w' tokens hne => rw [fill, if_neg hne] at h; cases h
  | case4 c parts tokens ih =>
    rw [fill, if_pos rfl] at h
    rcases List.mem_cons.mp hmem with heq | hmem
    · cases heq
    · exact ih h hmem
  | case5 c parts c' tokens hne => rw [fill, if_neg hne] at h; cases h
  | case6 parts tok tokens ih =>
    rw [fill] at h
    obtain ⟨first, hfirst, h⟩ := Option.bind_eq_some_iff.mp h
    obtain ⟨rest, hrest, h⟩ := Option.bind_eq_some_iff.mp h
    obtain rfl := Option.some.inj h
    rcases List.mem_cons.mp hmem with rfl | hmem
    · obtain rfl := Option.some.inj hfirst
      exact List.mem_cons_self
    · exact List.mem_cons_of_mem first (ih hrest hmem)
  | case7 parts text tokens ih =>
    rw [fill] at h
    rcases List.mem_cons.mp hmem with heq | hmem
    · cases heq
    · exact ih h hmem
  | case8 form ts => rw [fill] at h <;> first | cases h | assumption

theorem Phrase.namesAs {statement : String} {form : List Part} {names : List String}
    (h : Phrase statement.toList form names) (hnames : "" ∉ names) :
    namesAs form statement = some names := by
  obtain ⟨ts, htokens, hfill⟩ := h.tokens
  have hempty : .quoted "" ∉ ts := fun hmem => hnames (mem_of_fill hfill hmem)
  rw [Database.namesAs, htokens]
  exact (if_neg hempty).trans hfill

/-- Whatever the names are, if none of them is empty: each statement reads as its form with exactly
these names in its places.  A trigger that is dropped by the texts in which the server writes its
names is the one that is dropped by the texts of the table.  The identifier of a table reads as its
two names, and no other table has it. -/
theorem names_stay_names {schema name temp : String} (hschema : schema ≠ "") (hname : name ≠ "")
    (htemp : temp ≠ "") (chunk : Nat) :
    ∃ t trigger, t = Table.ofName schema name ∧
      trigger = schema ++ "_" ++ name ++ "_" ++ functionName ∧
      namesAs createSchemaForm (createSchema temp) = some [temp] ∧
      namesAs dropSchemaForm (dropSchema temp) = some [temp] ∧
      namesAs createFunctionForm (createFunction temp chunk) = some [temp, functionName] ∧
      namesAs createTriggerForm (createTrigger t temp) =
        some [trigger, schema, name, temp, functionName] ∧
      namesAs dropTriggerForm (dropTrigger t) = some [trigger, schema, name] ∧
      namesAs dropTriggerForm (dropNamedTrigger (quoteIdent schema ++ "." ++ quoteIdent name)
        (quoteIdent trigger)) = some [trigger, schema, name] ∧
      namesAs qualified t.id = some [schema, name] ∧
      ∀ schema' name', (Table.ofName schema' name').id = t.id →
        schema' = schema ∧ name' = name := by
  have htable : SpellsTable (Table.ofName schema name).id schema name :=
    spellsTable_identifier schema name
  have hserver : SpellsTable (quoteIdent schema ++ "." ++ quoteIdent name) schema name :=
    ⟨_, _, rfl, spells_quoteIdent schema, spells_quoteIdent name⟩
  -- the name of a trigger is never empty
  have htrigger : schema ++ "_" ++ name ++ "_" ++ functionName ≠ "" := by
    simp [functionName]
  have hfunction : functionName ≠ "" := by decide
  have htarget : "" ∉ [schema ++ "_" ++ name ++ "_" ++ functionName, schema, name] := by
    simp [hschema.symm, hname.symm, htrigger.symm]
  have hcalled : "" ∉ [temp, functionName] := by
    simp [htemp.symm, hfunction.symm]
  have hcreated : "" ∉ [schema ++ "_" ++ name ++ "_" ++ functionName, schema, name] ++
      [temp, functionName] :=
    fun hmem => (List.mem_append.mp hmem).elim htarget hcalled
  refine ⟨_, _, rfl, rfl, (phrase_createSchema temp).namesAs ?_,
    (phrase_dropSchema temp).namesAs ?_, (phrase_createFunction temp chunk).namesAs hcalled,
    (phrase_createTrigger htable temp).namesAs hcreated,
    (phrase_dropNamedTrigger (spells_triggerName _) htable).namesAs htarget,
    (phrase_dropNamedTrigger (spells_quoteIdent _) hserver).namesAs htarget,
    (phrase_table htable).namesAs fun hmem => htarget (List.mem_cons_of_mem _ hmem),
    fun schema' name' hid => identifier_inj hid⟩
  · simp [htemp.symm]
  · simp [htemp.symm]

/-- Names that would end a name, a statement or a comment if they were not quoted. -/
theorem hostile_names_stay_names :
    ∃ t, t = Table.ofName "pub\"; --" "select" ∧
      namesAs dropTriggerForm (dropTrigger t) =
        some ["pub\"; --_select_notify_event", "pub\"; --", "select"] ∧
      namesAs dropSchemaForm (dropSchema "$featuretag$") = some ["$featuretag$"] := by
  obtain ⟨t, trigger, ht, rfl, -, hdropSchema, -, -, hdrop, -⟩ :=
    @names_stay_names "pub\"; --" "select" "$featuretag$" (by decide) (by decide) (by decide) 1000
  exact ⟨t, ht, hdrop, hdropSchema⟩

end FreshTag.Database
