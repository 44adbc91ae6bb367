/-
FreshTag/Proofs/Cache/Versions.lean

Stores in which every etag has exactly its two keys: its identity and its
version.  They are the stores that the program builds, as long as no version
contains a colon; then a version is never an identity, and two etags of one
identity are of one version.

Such a store is described by what it holds under each identity (`stored?`).
Both operations of the program are one equation in this view: writing an etag
under its two keys puts it under its identity (`Paired.stored?_addPair`), and
removing a version takes out every etag of it (`Paired.stored?_without`).  A
version is in the store exactly if an etag of it is (`Paired.contains_iff`).
-/
import FreshTag.Proofs.Cache.Links

namespace FreshTag

/-- There is no colon in the text. -/
def ColonFree (s : String) : Prop :=
  ':' ∉ s.toList

instance (s : String) : Decidable (ColonFree s) :=
  inferInstanceAs (Decidable (':' ∉ s.toList))

/-- What stands behind the last separator is determined by the text. -/
theorem eq_of_append_cons_eq {α : Type} {sep : α} :
    ∀ {as bs vs ws : List α}, sep ∉ vs → sep ∉ ws →
      as ++ sep :: vs = bs ++ sep :: ws → vs = ws
  | [], [], _, _, _, _, h => (List.cons.inj h).2
  | [], b :: bs, vs, ws, hv, _, h => by
    have hvs : vs = bs ++ sep :: ws := (List.cons.inj h).2
    exact absurd (by simp [hvs]) hv
  | a :: as, [], vs, ws, _, hw, h => by
    have hws : as ++ sep :: vs = ws := (List.cons.inj h).2
    exact absurd (by simp [← hws]) hw
  | _ :: _, _ :: _, _, _, hv, hw, h => eq_of_append_cons_eq hv hw (List.cons.inj h).2

namespace WeakEtag

theorem toList_identity (e : WeakEtag) :
    e.identity.toList =
      (e.collection.toList ++ ':' :: e.featureId.toList) ++ ':' :: e.version.toList := by
  simp [identity, String.toList_append]

/-- A version without colon is no identity. -/
theorem identity_ne_of_colonFree {v : String} (hv : ColonFree v) (e : WeakEtag) :
    e.identity ≠ v := by
  rintro rfl
  apply hv
  simp [toList_identity]

/-- Two etags of one identity are of one version. -/
theorem version_eq_of_identity_eq {e f : WeakEtag} (he : ColonFree e.version)
    (hf : ColonFree f.version) (h : e.identity = f.identity) : e.version = f.version := by
  have hl := congrArg String.toList h
  rw [toList_identity, toList_identity] at hl
  exact String.toList_inj.mp (eq_of_append_cons_eq he hf hl)

end WeakEtag

namespace Cache.LinkStore

/-- The etag stored under an identity. -/
def stored? (s : LinkStore) (identity : String) : Option WeakEtag :=
  (s.values.get? identity).map Stored.etag

/-- Stores an etag under both of its keys. -/
def addPair (s : LinkStore) (etag : WeakEtag) : LinkStore :=
  (s.add etag.identity etag).add etag.versionKey etag

/-- The store without what is behind a key. -/
def without (s : LinkStore) (key : String) : LinkStore :=
  (s.remove? key).getD s

theorem Consistent.without {s : LinkStore} (hs : s.Consistent) (key : String) :
    (s.without key).Consistent := by
  unfold LinkStore.without
  rcases h : s.remove? key with - | t
  · exact hs
  · exact hs.remove? h

/-- What is left is the store without the identities behind the key, also where there are none. -/
theorem Consistent.removed_without {s : LinkStore} (hs : s.Consistent) (key : String) :
    Removed s key (s.without key) := by
  unfold LinkStore.without
  rcases h : s.remove? key with - | t
  · have hnil := hs.remove?_eq_none_iff.mp h
    refine ⟨fun i => ?_, fun k => ?_, fun k => hs.index_ne_nil⟩
    · rw [hnil, if_neg List.not_mem_nil, Option.getD_none]
    · rw [hnil, Option.getD_none]
      simp
  · exact hs.removed h

/-- An etag is left where it was, unless its identity was behind the key. -/
theorem Consistent.stored?_without {s : LinkStore} (hs : s.Consistent) (key identity : String) :
    (s.without key).stored? identity =
      if identity ∈ s.identities key then none else s.stored? identity := by
  unfold stored?
  rw [(hs.removed_without key).values]
  split <;> rfl

/-- Some stored etag is of the version. -/
def HoldsVersion (s : LinkStore) (version : String) : Prop :=
  ∃ identity etag, s.stored? identity = some etag ∧ etag.version = version

theorem stored?_eq_some_iff {s : LinkStore} {identity : String} {etag : WeakEtag} :
    s.stored? identity = some etag ↔
      ∃ stored, s.values.get? identity = some stored ∧ stored.etag = etag :=
  Option.map_eq_some_iff

/-- Where a key leads to an identity, an etag is stored. -/
theorem exists_stored?_of_mem_keysOf {s : LinkStore} {identity key : String}
    (h : key ∈ s.keysOf identity) : ∃ etag, s.stored? identity = some etag := by
  obtain ⟨stored, hst, -⟩ := mem_keysOf_iff.mp h
  exact ⟨stored.etag, stored?_eq_some_iff.mpr ⟨stored, hst, rfl⟩⟩

@[simp] theorem stored?_empty (identity : String) : empty.stored? identity = none := rfl

theorem stored?_add (s : LinkStore) (key : String) (etag : WeakEtag) (i : String) :
    (s.add key etag).stored? i = if i = etag.identity then some etag else s.stored? i := by
  unfold stored?
  rw [get?_values_add]
  by_cases h : i = etag.identity <;> simp [h]

theorem stored?_addPair (s : LinkStore) (etag : WeakEtag) (i : String) :
    (s.addPair etag).stored? i = if i = etag.identity then some etag else s.stored? i := by
  unfold addPair
  rw [stored?_add, stored?_add]
  by_cases h : i = etag.identity <;> simp [h]

/-- The keys of what `addPair` has stored: those from before, the identity and the version. -/
theorem mem_keysOf_addPair (s : LinkStore) (etag : WeakEtag) (i k : String) :
    k ∈ (s.addPair etag).keysOf i ↔
      k ∈ s.keysOf i ∨ i = etag.identity ∧ (k = etag.identity ∨ k = etag.version) := by
  unfold addPair
  rw [keysOf_add, keysOf_add, keysOf_add]
  by_cases h : i = etag.identity
  · subst h
    simp only [if_true, mem_appendNew, WeakEtag.versionKey, true_and]
    tauto
  · simp [h]

/-- Every etag is stored under exactly its two keys, and no version has a colon. -/
structure Paired (s : LinkStore) : Prop extends s.Consistent where
  colonFree : ∀ {i : String} {etag : WeakEtag}, s.stored? i = some etag → ColonFree etag.version
  mem_keysOf : ∀ {i : String} {etag : WeakEtag} {k : String}, s.stored? i = some etag →
    (k ∈ s.keysOf i ↔ k = i ∨ k = etag.version)

theorem paired_empty : Paired empty where
  toConsistent := consistent_empty
  colonFree := by
    intro i etag h
    simp at h
  mem_keysOf := by
    intro i etag k h
    simp at h

namespace Paired

variable {s : LinkStore} (hs : s.Paired)

include hs

theorem identity_of_stored? {i : String} {etag : WeakEtag} (h : s.stored? i = some etag) :
    etag.identity = i := by
  obtain ⟨stored, hst, rfl⟩ := stored?_eq_some_iff.mp h
  exact hs.own_identity hst

/-- Behind a version are the identities of the etags of that version. -/
theorem mem_identities_version {v : String} (hv : ColonFree v) {i : String} :
    i ∈ s.identities v ↔ ∃ etag, s.stored? i = some etag ∧ etag.version = v := by
  rw [hs.mem_identities_iff]
  constructor
  · intro hk
    obtain ⟨etag, hi⟩ := exists_stored?_of_mem_keysOf hk
    refine ⟨etag, hi, ?_⟩
    -- the key is the identity of the etag or its version, and `v` is no identity
    rcases (hs.mem_keysOf hi).mp hk with rfl | rfl
    · exact absurd (hs.identity_of_stored? hi) (WeakEtag.identity_ne_of_colonFree hv _)
    · rfl
  · rintro ⟨etag, hi, rfl⟩
    exact (hs.mem_keysOf hi).mpr (Or.inr rfl)

/-- Behind a key with a colon is at most itself. -/
theorem mem_identities_of_not_colonFree {k : String} (hk : ¬ ColonFree k) {i : String} :
    i ∈ s.identities k ↔ i = k ∧ ∃ etag, s.stored? i = some etag := by
  rw [hs.mem_identities_iff]
  constructor
  · intro hmem
    obtain ⟨etag, hi⟩ := exists_stored?_of_mem_keysOf hmem
    refine ⟨?_, etag, hi⟩
    -- again one of the two keys, and this time it cannot be the version
    rcases (hs.mem_keysOf hi).mp hmem with h | h
    · exact h.symm
    · exact absurd (h ▸ hs.colonFree hi) hk
  · rintro ⟨rfl, etag, hi⟩
    exact (hs.mem_keysOf hi).mpr (Or.inl rfl)

/-- Behind an identity is at most itself. -/
theorem mem_identities_identity {e : WeakEtag} {i : String} :
    i ∈ s.identities e.identity ↔ i = e.identity ∧ ∃ etag, s.stored? i = some etag :=
  hs.mem_identities_of_not_colonFree fun h => WeakEtag.identity_ne_of_colonFree h e rfl

/-- A version is in the store exactly if an etag of it is. -/
theorem contains_iff {v : String} (hv : ColonFree v) :
    s.contains v = true ↔ s.HoldsVersion v := by
  rw [hs.toConsistent.contains_iff_exists]
  simp only [hs.mem_identities_version hv]
  rfl

/-- An identity leads to an etag exactly if one is stored under it. -/
theorem get?_identity_eq_none_iff {e : WeakEtag} :
    s.get? e.identity = none ↔ s.stored? e.identity = none := by
  rw [hs.get?_eq_none_iff, List.eq_nil_iff_forall_not_mem]
  simp only [hs.mem_identities_identity, not_and, not_exists]
  constructor
  · intro h
    exact Option.eq_none_iff_forall_ne_some.mpr (h _ rfl)
  · rintro h i rfl etag hi
    rw [h] at hi
    cases hi

/-- Writing an etag under its two keys keeps the store paired. -/
theorem addPair {etag : WeakEtag} (hv : ColonFree etag.version) : (s.addPair etag).Paired where
  toConsistent := (hs.toConsistent.add _ _).add _ _
  colonFree := by
    intro i e h
    rw [stored?_addPair] at h
    split at h
    · cases h
      exact hv
    · exact hs.colonFree h
  mem_keysOf := by
    intro i e k h
    rw [mem_keysOf_addPair]
    rw [stored?_addPair] at h
    by_cases hi : i = etag.identity
    · rw [if_pos hi] at h
      cases h
      subst hi
      simp only [true_and, or_iff_right_iff_imp]
      intro hk
      -- an earlier etag of the identity had the same version
      obtain ⟨old, hold⟩ := exists_stored?_of_mem_keysOf hk
      rw [← WeakEtag.version_eq_of_identity_eq (hs.colonFree hold) hv
        (hs.identity_of_stored? hold)]
      exact (hs.mem_keysOf hold).mp hk
    · rw [if_neg hi] at h
      rw [hs.mem_keysOf h]
      simp [hi]

/-- Remembering an etag makes its version known, also where it was stored before. -/
theorem holdsVersion_remembered {etag : WeakEtag} (hv : ColonFree etag.version) :
    LinkStore.HoldsVersion (if s.get? etag.identity = none then s.addPair etag else s)
      etag.version := by
  split
  · exact ⟨etag.identity, etag, by rw [stored?_addPair, if_pos rfl], rfl⟩
  · next h =>
    -- what is there already is an etag of the same identity, hence of the same version
    rw [hs.get?_identity_eq_none_iff] at h
    obtain ⟨old, hold⟩ := Option.ne_none_iff_exists'.mp h
    refine ⟨etag.identity, old, hold, ?_⟩
    exact WeakEtag.version_eq_of_identity_eq (hs.colonFree hold) hv (hs.identity_of_stored? hold)

/-! ### Removing a version -/

/-- Removing a version takes out every etag of it, and nothing else. -/
theorem stored?_without {v : String} (hv : ColonFree v) (i : String) :
    (s.without v).stored? i = (s.stored? i).filter (·.version ≠ v) := by
  rw [hs.toConsistent.stored?_without]
  rcases hi : s.stored? i with - | etag
  · simp
  · by_cases he : etag.version = v
    · have hmem : i ∈ s.identities v := (hs.mem_identities_version hv).mpr ⟨etag, hi, he⟩
      simp [hmem, Option.filter, he]
    · have hmem : i ∉ s.identities v := by
        intro hmem
        obtain ⟨etag', hi', he'⟩ := (hs.mem_identities_version hv).mp hmem
        rw [hi] at hi'
        exact he (Option.some.inj hi' ▸ he')
      simp [hmem, Option.filter, he]

/-- Removing a version keeps the store paired. -/
theorem without {v : String} (hv : ColonFree v) : (s.without v).Paired := by
  have hr := hs.toConsistent.removed_without v
  -- what is left was there before, under the same keys
  have hstored : ∀ {i : String} {etag : WeakEtag}, (s.without v).stored? i = some etag →
      s.stored? i = some etag := by
    intro i etag hi
    rw [hs.stored?_without hv] at hi
    exact (Option.filter_eq_some_iff.mp hi).1
  refine ⟨hs.toConsistent.without v, fun hi => hs.colonFree (hstored hi), ?_⟩
  intro i etag k hi
  have hnot : i ∉ s.identities v := by
    obtain ⟨stored, hst, -⟩ := stored?_eq_some_iff.mp hi
    exact (hr.get?_eq_some hst).1
  rw [hr.keysOf, if_neg hnot]
  exact hs.mem_keysOf (hstored hi)

end Paired

end Cache.LinkStore

end FreshTag
