/-
FreshTag/Proofs/Catalog/Resolution.lean

Which table an identifier means.  Tables of different names have different
identifiers, so a snapshot, which looks for the identifier first, finds every
table by it, in whatever order it holds them (`bestNamed_id`).

A fixed list asks each table in its turn whether it answers to the name, and a
table answers to its plain name too.  The plain name of one table can be the
identifier of another one: the identifier holds the quotes that the other name
brings along (`quote_mem_of_qualifiedName_eq`).  So a list finds a table by its
identifier exactly if no table before it has that plain name
(`ids_resolve_iff`).
-/
import FreshTag.Catalog.Lookup
import FreshTag.Proofs.Catalog.Quoting
import FreshTag.Proofs.Database.Spelling
import Mathlib

namespace FreshTag.Catalog

/-- Tables with the identifiers of their names, no two of them of one name. -/
structure WellNamed (tables : List Table) : Prop where
  identified : ∀ t ∈ tables, t.id = Table.identifier t.schema t.name
  distinct : tables.Pairwise fun t u => (t.schema, t.name) ≠ (u.schema, u.name)

/-! ### Identifiers -/

section

variable {tables : List Table}

theorem WellNamed.ids_nodup (h : WellNamed tables) : (tables.map Table.id).Nodup := by
  rw [List.Nodup, List.pairwise_map]
  refine h.distinct.imp_of_mem fun {t u} ht hu hne heq => hne ?_
  rw [h.identified t ht, h.identified u hu] at heq
  obtain ⟨hschema, hname⟩ := Database.identifier_inj heq
  rw [hschema, hname]

theorem find?_id (h : (tables.map Table.id).Nodup) {t : Table} (ht : t ∈ tables) :
    tables.find? (·.id = t.id) = some t := by
  obtain ⟨u, hu⟩ : ∃ u, tables.find? (·.id = t.id) = some u := by
    rw [← Option.isSome_iff_exists, List.find?_isSome]
    exact ⟨t, ht, by simp⟩
  have hid : u.id = t.id := by simpa using List.find?_some hu
  rw [hu, List.inj_on_of_nodup_map h (List.mem_of_find?_eq_some hu) ht hid]

/-- A table is found by its identifier, also where another one has it as its plain name. -/
theorem bestNamed_id (h : (tables.map Table.id).Nodup) {t : Table} (ht : t ∈ tables) :
    bestNamed tables t.id = some t := by
  rw [bestNamed, find?_id h ht]
  rfl

theorem bestNamed_eq_none {name : String}
    (h : ∀ t ∈ tables, name ≠ t.id ∧ name ≠ t.qualifiedName) : bestNamed tables name = none := by
  rw [bestNamed, Option.or_eq_none_iff, firstNamed_eq_none_iff, List.find?_eq_none]
  refine ⟨fun t ht => ?_, fun t ht => ?_⟩
  · simpa using (h t ht).1.symm
  · simpa [Table.answersTo] using ⟨(h t ht).1.symm, (h t ht).2.symm⟩

/-! ### The order of a snapshot -/

theorem insertById_perm {t : Table} (h : ∀ u ∈ tables, u.id ≠ t.id) :
    (insertById t tables).Perm (t :: tables) := by
  induction tables with
  | nil => exact List.Perm.refl _
  | cons u rest ih =>
    obtain ⟨hu, hrest⟩ := List.forall_mem_cons.mp h
    rw [insertById, if_neg hu]
    split
    · exact List.Perm.refl _
    · exact ((ih hrest).cons u).trans (List.Perm.swap t u rest)

/-- Where no identifier comes twice, a snapshot holds all tables. -/
theorem byId_perm (h : (tables.map Table.id).Nodup) : (byId tables).Perm tables := by
  induction tables using List.reverseRecOn with
  | nil => exact List.Perm.refl _
  | append_singleton tables t ih =>
    rw [List.map_append, List.nodup_append] at h
    obtain ⟨htables, -, hnew⟩ := h
    have hperm := ih htables
    have hconcat : byId (tables ++ [t]) = insertById t (byId tables) := List.foldl_concat ..
    rw [hconcat]
    refine (insertById_perm fun u hu => ?_).trans ((hperm.cons t).trans ?_)
    · exact hnew _ (List.mem_map_of_mem (hperm.mem_iff.mp hu)) _ List.mem_cons_self
    · exact (List.perm_append_singleton t tables).symm

end

/-! ### Plain names that are identifiers -/

section

variable {name : String}

/-- Where no quote was put around it, the name stands bare. -/
theorem isPlainName_of_quote_not_mem (h : '"' ∉ (plainOrQuoted name).toList) :
    plainOrQuoted name = name ∧ isPlainName name = true := by
  unfold plainOrQuoted at h ⊢
  split at h
  · next hplain =>
    rw [if_pos hplain]
    exact ⟨rfl, (Bool.and_eq_true_iff.mp hplain).1⟩
  · simp [doubleQuoted] at h

theorem dot_not_mem_of_isPlainName (h : isPlainName name = true) : '.' ∉ name.toList := by
  unfold isPlainName at h
  split at h
  · cases h
  · next c cs hname =>
    rw [hname]
    intro hdot
    have hplain := List.all_eq_true.mp (Bool.and_eq_true_iff.mp h).2 '.' hdot
    exact absurd hplain (by decide)

end

theorem append_dot_inj {a b c d : List Char} (hc : '.' ∉ c) (hd : '.' ∉ d)
    (h : a ++ '.' :: b = c ++ '.' :: d) : a = c ∧ b = d := by
  have hcount := congrArg (List.count '.') h
  rw [List.count_append, List.count_append, List.count_cons_self, List.count_cons_self,
    List.count_eq_zero.mpr hc, List.count_eq_zero.mpr hd] at hcount
  have ha : '.' ∉ a := List.count_eq_zero.mp (by omega)
  have hcut := @Text.cutFirst_append '.' a b ha
  rw [h, Text.cutFirst_append hc, Option.some.injEq, Prod.mk.injEq] at hcut
  exact ⟨hcut.1.symm, hcut.2.symm⟩

/-- Without quotes only the two names of the table itself make its identifier. -/
theorem quote_mem_of_qualifiedName_eq {t u : Table} (hid : t.id = Table.identifier t.schema t.name)
    (hne : (u.schema, u.name) ≠ (t.schema, t.name)) (h : u.qualifiedName = t.id) :
    '"' ∈ u.schema.toList ∨ '"' ∈ u.name.toList := by
  by_contra hnone
  obtain ⟨huschema, huname⟩ := not_or.mp hnone
  have hlist : u.schema.toList ++ '.' :: u.name.toList =
      (plainOrQuoted t.schema).toList ++ '.' :: (plainOrQuoted t.name).toList := by
    simpa [Table.qualifiedName, Table.identifier, hid] using congrArg String.toList h
  -- so the identifier has no quotes either, and both names of the table stand bare in it
  have hquote : '"' ∉ (plainOrQuoted t.schema).toList ++ '.' :: (plainOrQuoted t.name).toList := by
    rw [← hlist]
    simp [huschema, huname]
  rw [List.mem_append, List.mem_cons, not_or, not_or] at hquote
  obtain ⟨hschema, hplainSchema⟩ := isPlainName_of_quote_not_mem hquote.1
  obtain ⟨hname, hplainName⟩ := isPlainName_of_quote_not_mem hquote.2.2
  rw [hschema, hname] at hlist
  obtain ⟨heqSchema, heqName⟩ := append_dot_inj (dot_not_mem_of_isPlainName hplainSchema)
    (dot_not_mem_of_isPlainName hplainName) hlist
  exact hne (Prod.ext (String.toList_inj.mp heqSchema) (String.toList_inj.mp heqName))

/-! ### A fixed list -/

/-- The table itself answers to its identifier, and before it only tables with that plain name
do. -/
theorem firstNamed_id {before behind : List Table} {t : Table}
    (hids : ∀ u ∈ before, u.id ≠ t.id) :
    firstNamed (before ++ t :: behind) t.id =
      some ((before.find? (·.qualifiedName = t.id)).getD t) := by
  have hbefore : before.find? (·.answersTo t.id) = before.find? (·.qualifiedName = t.id) := by
    refine List.find?_congr fun u hu => ?_
    simp [Table.answersTo, hids u hu]
  have hself : t.answersTo t.id = true := by simp [Table.answersTo]
  rw [firstNamed, List.find?_append, hbefore, List.find?_cons, hself]
  cases before.find? (·.qualifiedName = t.id) <;> rfl

theorem getD_find?_eq_iff {before : List Table} {t : Table} {name : String} (ht : t ∉ before) :
    (before.find? (·.qualifiedName = name)).getD t = t ↔
      ∀ u ∈ before, u.qualifiedName ≠ name := by
  constructor
  · intro h u hu hname
    obtain ⟨v, hv⟩ : ∃ v, before.find? (·.qualifiedName = name) = some v := by
      rw [← Option.isSome_iff_exists, List.find?_isSome]
      exact ⟨u, hu, by simpa using hname⟩
    rw [hv, Option.getD_some] at h
    exact ht (h ▸ List.mem_of_find?_eq_some hv)
  · intro h
    have hnone : before.find? (·.qualifiedName = name) = none :=
      List.find?_eq_none.mpr fun u hu => by simpa using h u hu
    rw [hnone, Option.getD_none]

/-- Among tables of different names a snapshot finds every one by its identifier, in whatever order
it holds them.  A fixed list finds the first table before it whose plain name is the identifier, so
it finds the table itself exactly if there is none; such a name holds a double quote.  A text that
is neither the identifier nor the plain name of any table means no table in either catalog. -/
theorem ids_resolve_iff {tables : List Table} (h : WellNamed tables) :
    (∀ t ∈ tables, (snapshot tables).lookup t.id = .ok (some t)) ∧
    (∀ held : List Table, held.Perm tables → ∀ t ∈ tables, bestNamed held t.id = some t) ∧
    (∀ before t behind, tables = before ++ t :: behind →
      (fixed tables).lookup t.id =
        .ok (some ((before.find? (·.qualifiedName = t.id)).getD t)) ∧
      ((fixed tables).lookup t.id = .ok (some t) ↔ ∀ u ∈ before, u.qualifiedName ≠ t.id) ∧
      ∀ u ∈ before, u.qualifiedName = t.id → '"' ∈ u.schema.toList ∨ '"' ∈ u.name.toList) ∧
    ∀ name, (∀ t ∈ tables, name ≠ t.id ∧ name ≠ t.qualifiedName) →
      (fixed tables).lookup name = .ok none ∧ (snapshot tables).lookup name = .ok none ∧
        ∀ held : List Table, held.Perm tables → bestNamed held name = none := by
  have hnodup := h.ids_nodup
  have hheld : ∀ held : List Table, held.Perm tables → ∀ t ∈ tables,
      bestNamed held t.id = some t := by
    intro held hperm t ht
    exact bestNamed_id ((hperm.map Table.id).nodup_iff.mpr hnodup) (hperm.mem_iff.mpr ht)
  have hmiss : ∀ name, (∀ t ∈ tables, name ≠ t.id ∧ name ≠ t.qualifiedName) →
      ∀ held : List Table, held.Perm tables → bestNamed held name = none :=
    fun name hname held hperm => bestNamed_eq_none fun t ht => hname t (hperm.mem_iff.mp ht)
  have hsnapshot := byId_perm hnodup
  refine ⟨fun t ht => congrArg Except.ok (hheld _ hsnapshot t ht), hheld, ?_, fun name hname => ?_⟩
  · rintro before t behind rfl
    have hcross := (List.pairwise_append.mp h.distinct).2.2
    have hids : ∀ u ∈ before, u.id ≠ t.id := by
      intro u hu
      rw [List.map_append, List.nodup_append] at hnodup
      exact hnodup.2.2 _ (List.mem_map_of_mem hu) _ List.mem_cons_self
    have hfirst := @firstNamed_id before behind t hids
    have hlookup : (fixed (before ++ t :: behind)).lookup t.id = .ok (some _) :=
      congrArg Except.ok hfirst
    refine ⟨hlookup, ?_, fun u hu => ?_⟩
    · rw [hlookup, Except.ok.injEq, Option.some.injEq]
      exact getD_find?_eq_iff fun ht => hids t ht rfl
    · exact quote_mem_of_qualifiedName_eq (h.identified t (by simp)) (hcross u hu t (by simp))
  · refine ⟨congrArg Except.ok ?_, congrArg Except.ok (hmiss name hname _ hsnapshot),
      hmiss name hname⟩
    exact (Option.or_eq_none_iff.mp (hmiss name hname tables (List.Perm.refl _))).2

/-- Two tables of one schema, the name of the first in quotes of its own. -/
def quotedOaks : List Table :=
  [Table.ofName "public" "\"Oak\"", Table.ofName "public" "Oak"]

theorem wellNamed_quotedOaks : WellNamed quotedOaks :=
  ⟨by simp [quotedOaks, Table.ofName], by simp [quotedOaks, Table.ofName]⟩

/-- Either oak is found in a snapshot, the one with quotes also in the list that begins with it, and
an oak in small letters in neither. -/
theorem quotedOaks_resolve :
    WellNamed quotedOaks ∧
      (snapshot quotedOaks).lookup "public.\"Oak\"" = .ok (some (Table.ofName "public" "Oak")) ∧
      (snapshot quotedOaks).lookup "public.\"\"\"Oak\"\"\"" =
        .ok (some (Table.ofName "public" "\"Oak\"")) ∧
      (fixed quotedOaks).lookup "public.\"\"\"Oak\"\"\"" =
        .ok (some (Table.ofName "public" "\"Oak\"")) ∧
      (fixed quotedOaks).lookup "public.oak" = .ok none := by
  have hplain : (Table.ofName "public" "Oak").id = "public.\"Oak\"" := by decide +kernel
  have hquoted : (Table.ofName "public" "\"Oak\"").id = "public.\"\"\"Oak\"\"\"" := by
    decide +kernel
  have hnone : ∀ t ∈ quotedOaks, "public.oak" ≠ t.id ∧ "public.oak" ≠ t.qualifiedName := by
    decide +kernel
  obtain ⟨hsnapshot, -, hfixed, hmiss⟩ := ids_resolve_iff wellNamed_quotedOaks
  obtain ⟨hfirst, -, -⟩ := hfixed [] _ [Table.ofName "public" "Oak"] rfl
  rw [← hplain, ← hquoted]
  exact ⟨wellNamed_quotedOaks, hsnapshot _ (.tail _ List.mem_cons_self),
    hsnapshot _ List.mem_cons_self, hfirst, (hmiss _ hnone).1⟩

/-- In a list the plain name of the first oak stands in front of the identifier of the second
one. -/
theorem quotedOak_hides_oak :
    WellNamed quotedOaks ∧ Table.ofName "public" "Oak" ∈ quotedOaks ∧
      (fixed quotedOaks).lookup (Table.ofName "public" "Oak").id =
        .ok (some (Table.ofName "public" "\"Oak\"")) ∧
      Table.ofName "public" "\"Oak\"" ≠ Table.ofName "public" "Oak" := by
  have hanswers : (Table.ofName "public" "\"Oak\"").answersTo (Table.ofName "public" "Oak").id =
      true := by decide +kernel
  have hname : (Table.ofName "public" "\"Oak\"").name ≠ (Table.ofName "public" "Oak").name := by
    decide
  exact ⟨wellNamed_quotedOaks, .tail _ List.mem_cons_self,
    congrArg Except.ok (List.find?_cons_of_pos hanswers), fun h => hname (congrArg Table.name h)⟩

end FreshTag.Catalog
