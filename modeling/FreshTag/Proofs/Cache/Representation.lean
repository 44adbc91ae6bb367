/-
FreshTag/Proofs/Cache/Representation.lean

What the two maps of a link store look like after any adding and removing.
`index` and `values` are converses of each other: a key leads to an identity
exactly if the identity is stored with that key (`index_is_converse_of_values`).
So no key is left that leads nowhere and no etag that no key leads to, and one
of the maps is empty exactly if the other one is.

All of it follows from `Consistent`, which every edit keeps (`Consistent.edit`),
read in the maps themselves instead of their views.
-/
import FreshTag.Proofs.Cache.Versions

namespace FreshTag.Cache.LinkStore

/-- An operation that changes a store. -/
inductive Edit where
  | add (key : String) (etag : WeakEtag)
  | remove (key : String)

/-- The store after an edit. -/
def edit (s : LinkStore) : Edit → LinkStore
  | .add key etag => s.add key etag
  | .remove key => s.without key

/-- The store that edits make of the empty one. -/
def ofEdits (edits : List Edit) : LinkStore :=
  edits.foldl edit empty

/-- The key has an entry in the index, with the identity in it. -/
def Leads (s : LinkStore) (key identity : String) : Prop :=
  ∃ linked, s.index.get? key = some linked ∧ identity ∈ linked

/-- The identity is stored, with the key in its key set. -/
def LedBy (s : LinkStore) (identity key : String) : Prop :=
  ∃ stored, s.values.get? identity = some stored ∧ key ∈ stored.keys

/-! ### Edits keep the maps consistent -/

theorem Consistent.edit {s : LinkStore} (hs : s.Consistent) (e : Edit) :
    (s.edit e).Consistent := by
  cases e with
  | add key etag => exact hs.add key etag
  | remove key => exact hs.without key

theorem Consistent.foldl_edit {s : LinkStore} (hs : s.Consistent) (edits : List Edit) :
    (edits.foldl LinkStore.edit s).Consistent := by
  induction edits generalizing s with
  | nil => exact hs
  | cons e edits ih => exact ih (hs.edit e)

theorem consistent_ofEdits (edits : List Edit) : (ofEdits edits).Consistent :=
  consistent_empty.foldl_edit edits

/-! ### Consistent maps -/

theorem leads_iff {s : LinkStore} {key identity : String} :
    s.Leads key identity ↔ identity ∈ s.identities key := by
  rcases h : s.index.get? key with - | linked
  · simp [Leads, identities, h]
  · simp [Leads, identities, h]

namespace Consistent

variable {s : LinkStore} (hs : s.Consistent)

include hs

theorem leads_iff_ledBy {key identity : String} :
    s.Leads key identity ↔ s.LedBy identity key := by
  rw [leads_iff, hs.mem_identities_iff]
  exact mem_keysOf_iff

/-- Some key leads to every etag that is stored. -/
theorem exists_leads {identity : String} {stored : Stored}
    (h : s.values.get? identity = some stored) : ∃ key, s.Leads key identity := by
  obtain ⟨key, hkey⟩ := List.exists_mem_of_ne_nil _ (hs.keys_ne_nil h)
  exact ⟨key, hs.leads_iff_ledBy.mpr ⟨stored, h, hkey⟩⟩

theorem nodup_of_get? {key : String} {linked : List String}
    (h : s.index.get? key = some linked) : linked.Nodup := by
  have hnodup := hs.nodup_identities key
  rwa [identities, h] at hnodup

/-- A key is in the store exactly if an etag is found behind it. -/
theorem contains_eq_isSome_get? (key : String) : s.contains key = (s.get? key).isSome := by
  rw [Bool.eq_iff_iff, hs.contains_iff, Option.isSome_iff_ne_none, ne_eq, ne_eq,
    hs.get?_eq_none_iff]

theorem index_get?_eq_none_of_size_eq_zero (h : s.size = 0) (key : String) :
    s.index.get? key = none := by
  rw [hs.index_get?, if_pos]
  -- an identity behind the key would be stored
  refine List.eq_nil_iff_forall_not_mem.mpr fun identity hmem => ?_
  obtain ⟨stored, hstored, -⟩ := hs.stored_of_mem hmem
  have hnone := Dict.size_eq_zero_iff.mp h identity
  rw [hstored] at hnone
  cases hnone

/-- The index is empty exactly if no etag is stored. -/
theorem size_eq_zero_iff : s.size = 0 ↔ s.index.size = 0 := by
  constructor
  · exact fun h => Dict.size_eq_zero_iff.mpr (hs.index_get?_eq_none_of_size_eq_zero h)
  · refine fun h => Dict.size_eq_zero_iff.mpr fun identity => ?_
    by_contra hne
    obtain ⟨stored, hstored⟩ := Option.ne_none_iff_exists'.mp hne
    obtain ⟨key, linked, hlinked, -⟩ := hs.exists_leads hstored
    rw [Dict.size_eq_zero_iff.mp h key] at hlinked
    cases hlinked

end Consistent

/-! ### After any edits -/

/-- Whatever was added and removed: a key leads to an identity exactly if that is stored with the
key, every entry of the index is a list without repetitions that is not empty, and every etag is
stored under its own identity, with some key.  Hence some key leads to every etag, a key is there
exactly if an etag is found behind it, and without etags the index is empty. -/
theorem index_is_converse_of_values (edits : List Edit) :
    (∀ key identity, (ofEdits edits).Leads key identity ↔ (ofEdits edits).LedBy identity key) ∧
      (∀ key linked, (ofEdits edits).index.get? key = some linked → linked ≠ [] ∧ linked.Nodup) ∧
      (∀ identity stored, (ofEdits edits).values.get? identity = some stored →
        stored.keys ≠ [] ∧ stored.etag.identity = identity ∧
          ∃ key, (ofEdits edits).Leads key identity) ∧
      (∀ key, (ofEdits edits).contains key = ((ofEdits edits).get? key).isSome) ∧
      ((ofEdits edits).size = 0 ↔ (ofEdits edits).index.size = 0) := by
  have hs := consistent_ofEdits edits
  refine ⟨fun key identity => hs.leads_iff_ledBy, fun key linked h => ⟨?_, hs.nodup_of_get? h⟩,
    fun identity stored h => ⟨hs.keys_ne_nil h, hs.own_identity h, hs.exists_leads h⟩,
    hs.contains_eq_isSome_get?, hs.size_eq_zero_iff⟩
  rintro rfl
  exact hs.index_ne_nil h

/-- Two rows of one transaction, of which one is removed by its identity: the version leads to the
other one only. -/
example :
    ((ofEdits [.add "10" (.ofVersion "10"), .add "oak" (.ofVersion "10"),
      .add "10" (.ofVersion "11"), .remove "oak"]).index.get? "10") = some ["::11"] := by
  decide

end FreshTag.Cache.LinkStore
