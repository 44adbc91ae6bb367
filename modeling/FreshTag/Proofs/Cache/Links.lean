/-
FreshTag/Proofs/Cache/Links.lean

The two maps of a link store agree.  `index` says which identities are behind a
key, `values` which keys lead to an identity, and each is the converse of the
other.  `Consistent` is this invariant; the empty store has it, and `add` and
`remove?` keep it, whatever keys and etags they are given.

What an operation does is said through two views: `identities`, the identities
behind a key, and `values.get?`, what is stored under an identity.  Adding
changes each of them at one place (`identities_add`, `get?_values_add`).
Removing a key takes the identities behind it out of everything
(`Consistent.removed`).  A removal works through the identities one by one, and
between two of them the two maps do not agree, so it has an invariant of its
own, `Dropped`.
-/
import FreshTag.Cache.LinkStore
import Mathlib.Data.List.Basic

namespace FreshTag.Cache

theorem mem_appendNew {x y : String} {xs : List String} :
    y ∈ appendNew x xs ↔ y = x ∨ y ∈ xs := by
  unfold appendNew
  split
  · next h =>
    constructor
    · exact Or.inr
    · rintro (rfl | hy)
      exacts [h, hy]
  · simp [or_comm]

theorem appendNew_ne_nil (x : String) (xs : List String) : appendNew x xs ≠ [] :=
  List.ne_nil_of_mem (mem_appendNew.mpr (Or.inl rfl))

theorem nodup_appendNew {x : String} {xs : List String} (h : xs.Nodup) :
    (appendNew x xs).Nodup := by
  unfold appendNew
  split
  · exact h
  · next hx =>
    rw [List.nodup_append]
    refine ⟨h, by simp, ?_⟩
    rintro a ha b hb rfl
    exact hx (List.mem_singleton.mp hb ▸ ha)

namespace LinkStore

/-! ### The invariant -/

/-- What the two maps of a store say of each other. -/
structure Consistent (s : LinkStore) : Prop where
  mem_identities_iff : ∀ {key identity : String},
    identity ∈ s.identities key ↔ key ∈ s.keysOf identity
  index_ne_nil : ∀ {key : String}, s.index.get? key ≠ some []
  nodup_identities : ∀ key : String, (s.identities key).Nodup
  keys_ne_nil : ∀ {identity : String} {stored : Stored},
    s.values.get? identity = some stored → stored.keys ≠ []
  own_identity : ∀ {identity : String} {stored : Stored},
    s.values.get? identity = some stored → stored.etag.identity = identity

theorem mem_keysOf_iff {s : LinkStore} {identity key : String} :
    key ∈ s.keysOf identity ↔
      ∃ stored, s.values.get? identity = some stored ∧ key ∈ stored.keys := by
  rcases h : s.values.get? identity with - | stored <;> simp [keysOf, h]

theorem consistent_empty : Consistent empty where
  mem_identities_iff := by
    intro key identity
    simp [identities, keysOf, empty, EmptyCollection.emptyCollection]
  index_ne_nil := by
    intro key
    simp [empty, EmptyCollection.emptyCollection]
  nodup_identities := by
    intro key
    simp [identities, empty, EmptyCollection.emptyCollection]
  keys_ne_nil := by
    intro identity stored h
    simp [empty, EmptyCollection.emptyCollection] at h
  own_identity := by
    intro identity stored h
    simp [empty, EmptyCollection.emptyCollection] at h

namespace Consistent

variable {s : LinkStore} (hs : s.Consistent)

include hs

/-- An identity behind some key is stored. -/
theorem stored_of_mem {key identity : String} (h : identity ∈ s.identities key) :
    ∃ stored, s.values.get? identity = some stored ∧ key ∈ stored.keys :=
  mem_keysOf_iff.mp (hs.mem_identities_iff.mp h)

/-- The index has an entry exactly for the keys with something behind them. -/
theorem index_get? (key : String) :
    s.index.get? key = if s.identities key = [] then none else some (s.identities key) := by
  rcases h : s.index.get? key with - | linked
  · simp [identities, h]
  · have hne : linked ≠ [] := fun e => hs.index_ne_nil (e ▸ h)
    simp [identities, h, hne]

theorem contains_iff {key : String} : s.contains key = true ↔ s.identities key ≠ [] := by
  unfold contains Dict.contains
  rw [hs.index_get?]
  by_cases h : s.identities key = [] <;> simp [h]

theorem contains_iff_exists {key : String} :
    s.contains key = true ↔ ∃ identity, identity ∈ s.identities key := by
  rw [hs.contains_iff]
  constructor
  · exact List.exists_mem_of_ne_nil _
  · rintro ⟨identity, h⟩
    exact List.ne_nil_of_mem h

/-- The etag that a key leads to is that of its latest link. -/
theorem get?_eq_some_iff {key : String} {etag : WeakEtag} :
    s.get? key = some etag ↔ ∃ identity stored, (s.identities key).getLast? = some identity ∧
      s.values.get? identity = some stored ∧ stored.etag = etag := by
  unfold get?
  rw [hs.index_get?]
  by_cases h : s.identities key = []
  · simp [h]
  · simp only [h, if_false]
    constructor
    · intro he
      obtain ⟨linked, hl, he⟩ := Option.bind_eq_some_iff.mp he
      obtain rfl := Option.some.inj hl
      obtain ⟨identity, hi, he⟩ := Option.bind_eq_some_iff.mp he
      obtain ⟨stored, hst, he⟩ := Option.bind_eq_some_iff.mp he
      exact ⟨identity, stored, hi, hst, Option.some.inj he⟩
    · rintro ⟨identity, stored, hi, hst, rfl⟩
      simp [hi, hst]

theorem get?_eq_none_iff {key : String} : s.get? key = none ↔ s.identities key = [] := by
  constructor
  · intro h
    by_contra hne
    -- the latest identity behind the key is stored, so the key leads to an etag
    have hlast := List.getLast?_eq_some_getLast hne
    obtain ⟨stored, hst, -⟩ := hs.stored_of_mem (List.getLast_mem hne)
    have hsome := hs.get?_eq_some_iff.mpr ⟨_, stored, hlast, hst, rfl⟩
    rw [h] at hsome
    cases hsome
  · intro h
    unfold get?
    rw [hs.index_get?]
    simp [h]

end Consistent

/-! ### Adding -/

theorem identities_add (s : LinkStore) (key : String) (etag : WeakEtag) (k : String) :
    (s.add key etag).identities k =
      if k = key then appendNew etag.identity (s.identities key) else s.identities k := by
  by_cases h : k = key <;> simp [add, identities, Dict.get?_set, h]

theorem get?_values_add (s : LinkStore) (key : String) (etag : WeakEtag) (i : String) :
    (s.add key etag).values.get? i =
      if i = etag.identity then some ⟨etag, appendNew key (s.keysOf etag.identity)⟩
      else s.values.get? i := by
  simp [add, Dict.get?_set]

theorem keysOf_add (s : LinkStore) (key : String) (etag : WeakEtag) (i : String) :
    (s.add key etag).keysOf i =
      if i = etag.identity then appendNew key (s.keysOf etag.identity) else s.keysOf i := by
  unfold keysOf
  rw [get?_values_add]
  by_cases h : i = etag.identity <;> simp [h, keysOf]

/-- Adding keeps the invariant, for every key and every etag. -/
theorem Consistent.add {s : LinkStore} (hs : s.Consistent) (key : String) (etag : WeakEtag) :
    (s.add key etag).Consistent where
  mem_identities_iff := by
    intro k i
    rw [identities_add, keysOf_add]
    -- both sides change only where the key and the identity are the new ones
    by_cases hk : k = key <;> by_cases hi : i = etag.identity
    · simp [hk, hi, mem_appendNew]
    · simp [hk, hi, mem_appendNew, hs.mem_identities_iff]
    · simp [hk, hi, mem_appendNew, hs.mem_identities_iff]
    · simp [hk, hi, hs.mem_identities_iff]
  index_ne_nil := by
    intro k
    simp only [LinkStore.add, Dict.get?_set]
    split
    · simpa using appendNew_ne_nil _ _
    · exact hs.index_ne_nil
  nodup_identities := by
    intro k
    rw [identities_add]
    split
    · exact nodup_appendNew (hs.nodup_identities key)
    · exact hs.nodup_identities k
  keys_ne_nil := by
    intro i stored h
    rw [get?_values_add] at h
    split at h
    · cases h
      exact appendNew_ne_nil _ _
    · exact hs.keys_ne_nil h
  own_identity := by
    intro i stored h
    rw [get?_values_add] at h
    split at h
    · next hi =>
      cases h
      exact hi.symm
    · exact hs.own_identity h

/-! ### Removing -/

theorem identities_unlink (identity : String) (s : LinkStore) (key k : String) :
    (unlink identity s key).identities k =
      if k = key then (s.identities key).filter (· ≠ identity) else s.identities k := by
  unfold unlink identities
  simp only [Dict.get?_alter]
  by_cases hk : k = key
  · simp only [hk, if_true]
    rcases h : ((s.index.get? key).getD []).filter (· ≠ identity) with - | ⟨x, xs⟩ <;> rfl
  · simp [hk]

/-- Cutting an identity off several keys. -/
theorem identities_foldl_unlink (identity : String) (keys : List String) (s : LinkStore)
    (k : String) :
    (keys.foldl (unlink identity) s).identities k =
      if k ∈ keys then (s.identities k).filter (· ≠ identity) else s.identities k := by
  induction keys generalizing s with
  | nil => simp
  | cons key keys ih =>
    -- a key may be in the list twice; filtering twice is filtering once
    rw [List.foldl_cons, ih, identities_unlink]
    by_cases hk : k = key
    · subst hk
      by_cases hm : k ∈ keys <;> simp [hm, List.filter_filter]
    · simp [hk]

theorem values_foldl_unlink (identity : String) (keys : List String) (s : LinkStore) :
    (keys.foldl (unlink identity) s).values = s.values := by
  induction keys generalizing s with
  | nil => rfl
  | cons key keys ih => rw [List.foldl_cons, ih]; rfl

theorem index_unlink_ne_nil {s : LinkStore} (h : ∀ k, s.index.get? k ≠ some [])
    (identity key k : String) : (unlink identity s key).index.get? k ≠ some [] := by
  unfold unlink
  simp only [Dict.get?_alter]
  split
  · rcases ((s.index.get? key).getD []).filter (· ≠ identity) with - | ⟨x, xs⟩ <;> simp
  · exact h k

theorem index_foldl_unlink_ne_nil (identity : String) (keys : List String) {s : LinkStore}
    (h : ∀ k, s.index.get? k ≠ some []) (k : String) :
    (keys.foldl (unlink identity) s).index.get? k ≠ some [] := by
  induction keys generalizing s with
  | nil => exact h k
  | cons key keys ih => exact ih (index_unlink_ne_nil h identity key)

/-- In the middle of a removal: `t` is `s` without the identities in `done` and without the entry
of the key that is removed. -/
structure Dropped (s : LinkStore) (key : String) (done : List String) (t : LinkStore) : Prop where
  values : ∀ i, t.values.get? i = if i ∈ done then none else s.values.get? i
  identities : ∀ k, t.identities k = if k = key then [] else (s.identities k).filter (· ∉ done)
  index_ne_nil : ∀ k, t.index.get? k ≠ some []

/-- A removal begins by taking out the entry of the key. -/
theorem Consistent.dropped_nil {s : LinkStore} (hs : s.Consistent) (key : String) :
    Dropped s key [] { s with index := s.index.erase key } where
  values := by simp
  identities := by
    intro k
    by_cases hk : k = key <;> simp [LinkStore.identities, Dict.get?_erase, hk]
  index_ne_nil := by
    intro k
    simp only [Dict.get?_erase]
    split
    · simp
    · exact hs.index_ne_nil

/-- One more identity is dropped.  Nothing happens if it has been dropped before. -/
theorem Dropped.cons {s t : LinkStore} {key : String} {done : List String} (hs : s.Consistent)
    (h : Dropped s key done t) (identity : String) :
    Dropped s key (identity :: done) (drop key t identity) := by
  have hv := h.values identity
  unfold drop
  rcases hst : t.values.get? identity with - | stored
  · -- not stored any more, so no key of `t` leads to it
    have hgone : identity ∈ done ∨ s.values.get? identity = none := by
      by_cases hd : identity ∈ done
      · exact Or.inl hd
      · exact Or.inr (by simpa [hst, hd] using hv.symm)
    refine ⟨fun i => ?_, fun k => ?_, h.index_ne_nil⟩
    · rw [h.values]
      rcases hgone with hd | hn
      · by_cases hi : i = identity <;> simp [hi, hd]
      · by_cases hi : i = identity <;> simp [hi, hn]
    · rw [h.identities]
      congr 1
      refine List.filter_congr fun i hi => ?_
      rcases hgone with hd | hn
      · by_cases hii : i = identity <;> simp [hii, hd]
      · have hii : i ≠ identity := by
          rintro rfl
          obtain ⟨_, hsome, -⟩ := hs.stored_of_mem hi
          rw [hn] at hsome
          cases hsome
        simp [hii]
  · have hd : identity ∉ done := by
      intro hd
      rw [hst, if_pos hd] at hv
      cases hv
    have hs' : s.values.get? identity = some stored := by
      rw [hst, if_neg hd] at hv
      exact hv.symm
    refine ⟨fun i => ?_, fun k => ?_, index_foldl_unlink_ne_nil _ _ h.index_ne_nil⟩
    · rw [values_foldl_unlink, Dict.get?_erase, h.values]
      by_cases hi : i = identity <;> simp [hi]
    · rw [identities_foldl_unlink]
      have hk : LinkStore.identities { t with values := t.values.erase identity } k =
          t.identities k := rfl
      rw [hk, h.identities]
      by_cases hkey : k = key
      · simp [hkey]
      · by_cases hmem : k ∈ stored.keys
        · simp [hkey, hmem, List.filter_filter]
        · -- a key outside the key list has never led to the identity
          have hni : identity ∉ s.identities k := by
            intro hi
            obtain ⟨stored', hget, hmem'⟩ := hs.stored_of_mem hi
            rw [hs'] at hget
            exact hmem (Option.some.inj hget ▸ hmem')
          simp only [hkey, hmem, List.mem_filter, false_and, if_false]
          refine List.filter_congr fun i hi => ?_
          have hii : i ≠ identity := by
            rintro rfl
            exact hni hi
          simp [hii]

theorem Dropped.foldl {s t : LinkStore} {key : String} {done : List String} (hs : s.Consistent)
    (h : Dropped s key done t) (linked : List String) :
    ∃ all, Dropped s key all (linked.foldl (drop key) t) ∧
      ∀ i, i ∈ all ↔ i ∈ linked ∨ i ∈ done := by
  -- on the identities, each of which joins those that are done
  induction linked generalizing t done with
  | nil => exact ⟨done, h, by simp⟩
  | cons identity linked ih =>
    obtain ⟨all, hall, hmem⟩ := ih (h.cons hs identity)
    refine ⟨all, hall, fun i => ?_⟩
    rw [hmem, List.mem_cons, List.mem_cons]
    constructor
    · rintro (hi | rfl | hi)
      exacts [Or.inl (Or.inr hi), Or.inl (Or.inl rfl), Or.inr hi]
    · rintro ((rfl | hi) | hi)
      exacts [Or.inr (Or.inl rfl), Or.inl hi, Or.inr (Or.inr hi)]

/-- What a removal leaves: `t` is `s` without the identities behind the key. -/
structure Removed (s : LinkStore) (key : String) (t : LinkStore) : Prop where
  values : ∀ i, t.values.get? i = if i ∈ s.identities key then none else s.values.get? i
  identities : ∀ k, t.identities k = (s.identities k).filter (· ∉ s.identities key)
  index_ne_nil : ∀ k, t.index.get? k ≠ some []

/-- Nothing is removed exactly if nothing is behind the key. -/
theorem Consistent.remove?_eq_none_iff {s : LinkStore} (hs : s.Consistent) {key : String} :
    s.remove? key = none ↔ s.identities key = [] := by
  unfold remove?
  rw [Option.map_eq_none_iff, hs.index_get?]
  by_cases h : s.identities key = [] <;> simp [h]

theorem Consistent.removed {s t : LinkStore} (hs : s.Consistent) {key : String}
    (h : s.remove? key = some t) : Removed s key t := by
  obtain ⟨linked, hl, rfl⟩ := Option.map_eq_some_iff.mp h
  have hid : s.identities key = linked := by simp [identities, hl]
  obtain ⟨all, hall, hmem⟩ := (hs.dropped_nil key).foldl hs linked
  have hmem' : ∀ i, i ∈ all ↔ i ∈ s.identities key := by simpa [hid] using hmem
  refine ⟨fun i => ?_, fun k => ?_, hall.index_ne_nil⟩
  · rw [hall.values]
    simp only [hmem']
  · rw [hall.identities]
    split
    · next hk => simp [hk]
    · simp only [hmem']

theorem Removed.keysOf {s t : LinkStore} {key : String} (h : Removed s key t) (i : String) :
    t.keysOf i = if i ∈ s.identities key then [] else s.keysOf i := by
  unfold LinkStore.keysOf
  rw [h.values]
  split <;> rfl

theorem Removed.get?_eq_some {s t : LinkStore} {key i : String} {stored : Stored}
    (h : Removed s key t) (ht : t.values.get? i = some stored) :
    i ∉ s.identities key ∧ s.values.get? i = some stored := by
  rw [h.values] at ht
  split at ht
  · cases ht
  · next hi => exact ⟨hi, ht⟩

/-- Removing keeps the invariant, for every key. -/
theorem Consistent.of_removed {s t : LinkStore} (hs : s.Consistent) {key : String}
    (h : Removed s key t) : t.Consistent where
  mem_identities_iff := by
    intro k i
    rw [h.identities, h.keysOf]
    by_cases hi : i ∈ s.identities key
    · simp [hi]
    · rw [if_neg hi, ← hs.mem_identities_iff]
      simp [hi]
  index_ne_nil := h.index_ne_nil _
  nodup_identities := by
    intro k
    rw [h.identities]
    exact (hs.nodup_identities k).filter _
  keys_ne_nil := fun ht => hs.keys_ne_nil (h.get?_eq_some ht).2
  own_identity := fun ht => hs.own_identity (h.get?_eq_some ht).2

theorem Consistent.remove? {s t : LinkStore} (hs : s.Consistent) {key : String}
    (h : s.remove? key = some t) : t.Consistent :=
  hs.of_removed (hs.removed h)

end LinkStore

end FreshTag.Cache
