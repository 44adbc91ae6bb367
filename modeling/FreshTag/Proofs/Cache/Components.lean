/-
FreshTag/Proofs/Cache/Components.lean

A store falls apart into its versions.  `AgreeOn v s t` says that the stores
`s` and `t` have the same etags of version `v`, linked in the same order.  Where
every etag has its two keys and no version has a colon, both operations of the
program work inside one version: they keep two stores agreeing on every version
they agree on, and a store agrees with what it becomes on every other version.
Stores that agree on all versions cannot be told apart by any key
(`Paired.get?_eq_of_agree`, `Paired.size_eq_of_agree`).
-/
import FreshTag.Proofs.Cache.Versions

namespace FreshTag.Cache.LinkStore

/-- The stores have the same etags of the version, in the same order. -/
structure AgreeOn (v : String) (s t : LinkStore) : Prop where
  identities : s.identities v = t.identities v
  stored? : ∀ e : WeakEtag, e.version = v → s.stored? e.identity = t.stored? e.identity

namespace AgreeOn

variable {v : String} {s t u : LinkStore}

theorem refl (v : String) (s : LinkStore) : AgreeOn v s s :=
  ⟨rfl, fun _ _ => rfl⟩

theorem symm (h : AgreeOn v s t) : AgreeOn v t s :=
  ⟨h.identities.symm, fun e he => (h.stored? e he).symm⟩

theorem trans (h : AgreeOn v s t) (h' : AgreeOn v t u) : AgreeOn v s u :=
  ⟨h.identities.trans h'.identities, fun e he => (h.stored? e he).trans (h'.stored? e he)⟩

end AgreeOn

/-! ### Writing an etag under its two keys -/

/-- Behind a version stands what stood there, and the etag if it is of the version. -/
theorem identities_addPair {v : String} (hv : ColonFree v) (s : LinkStore) (etag : WeakEtag) :
    (s.addPair etag).identities v =
      if v = etag.version then appendNew etag.identity (s.identities v) else s.identities v := by
  have hne : v ≠ etag.identity := (WeakEtag.identity_ne_of_colonFree hv etag).symm
  unfold addPair
  rw [identities_add, WeakEtag.versionKey]
  by_cases h : v = etag.version
  · subst h
    rw [if_pos rfl, if_pos rfl, identities_add, if_neg hne]
  · rw [if_neg h, if_neg h, identities_add, if_neg hne]

/-- Writing keeps stores agreeing on every version. -/
theorem AgreeOn.addPair {v : String} {s t : LinkStore} (h : AgreeOn v s t) (hv : ColonFree v)
    (etag : WeakEtag) : AgreeOn v (s.addPair etag) (t.addPair etag) where
  identities := by rw [identities_addPair hv, identities_addPair hv, h.identities]
  stored? e he := by rw [stored?_addPair, stored?_addPair, h.stored? e he]

/-- Writing leaves the other versions alone. -/
theorem agreeOn_addPair {v : String} (hv : ColonFree v) {etag : WeakEtag}
    (hetag : ColonFree etag.version) (hne : etag.version ≠ v) (s : LinkStore) :
    AgreeOn v (s.addPair etag) s where
  identities := by rw [identities_addPair hv, if_neg (Ne.symm hne)]
  stored? e he := by
    have hother : e.identity ≠ etag.identity := fun heq =>
      hne (he ▸ (WeakEtag.version_eq_of_identity_eq (he ▸ hv) hetag heq).symm)
    rw [stored?_addPair, if_neg hother]

/-! ### Removing a version -/

namespace Paired

variable {s t : LinkStore} (hs : s.Paired) {v w : String} (hv : ColonFree v)

include hs hv

/-- No etag is of two versions. -/
theorem not_mem_identities {i : String} (hw : ColonFree w) (hne : v ≠ w)
    (hi : i ∈ s.identities v) : i ∉ s.identities w := by
  intro hi'
  obtain ⟨e, he, rfl⟩ := (hs.mem_identities_version hv).mp hi
  obtain ⟨e', he', rfl⟩ := (hs.mem_identities_version hw).mp hi'
  exact hne (congrArg WeakEtag.version (Option.some.inj (he.symm.trans he')))

/-- Behind the removed version nothing is left, and behind the others all that was there. -/
theorem identities_without (hw : ColonFree w) :
    (s.without w).identities v = if v = w then [] else s.identities v := by
  rw [(hs.toConsistent.removed_without w).identities]
  split
  · next hvw =>
    subst hvw
    exact List.filter_eq_nil_iff.mpr fun i hi => by simpa using hi
  · next hvw =>
    refine List.filter_eq_self.mpr fun i hi => ?_
    simpa using hs.not_mem_identities hv hw hvw hi

/-- Removing leaves the other versions alone. -/
theorem agreeOn_without (hw : ColonFree w) (hne : w ≠ v) : AgreeOn v (s.without w) s where
  identities := by rw [hs.identities_without hv hw, if_neg (Ne.symm hne)]
  stored? e he := by
    rw [hs.stored?_without hw]
    rcases hstored : s.stored? e.identity with - | e'
    · rfl
    · have hversion : e'.version = v := by
        rw [← he]
        exact WeakEtag.version_eq_of_identity_eq (hs.colonFree hstored) (he ▸ hv)
          (hs.identity_of_stored? hstored)
      simp [Option.filter, hversion, Ne.symm hne]

end Paired

/-- Removing keeps stores agreeing on every version. -/
theorem AgreeOn.without {v w : String} {s t : LinkStore} (h : AgreeOn v s t) (hs : s.Paired)
    (ht : t.Paired) (hv : ColonFree v) (hw : ColonFree w) :
    AgreeOn v (s.without w) (t.without w) where
  identities := by rw [hs.identities_without hv hw, ht.identities_without hv hw, h.identities]
  stored? e he := by rw [hs.stored?_without hw, ht.stored?_without hw, h.stored? e he]

/-! ### Agreeing on all versions -/

namespace Paired

variable {s t : LinkStore} (hs : s.Paired)

include hs

theorem stored?_of_agree (h : ∀ v, ColonFree v → AgreeOn v s t) {i : String} {etag : WeakEtag}
    (hi : s.stored? i = some etag) : t.stored? i = some etag := by
  rw [← hs.identity_of_stored? hi, ← (h _ (hs.colonFree hi)).stored? etag rfl,
    hs.identity_of_stored? hi, hi]

variable (ht : t.Paired)

include ht

/-- Stores that agree on a version agree on whether it is there. -/
theorem contains_eq_of_agreeOn {v : String} (h : AgreeOn v s t) : s.contains v = t.contains v := by
  rw [Bool.eq_iff_iff, hs.toConsistent.contains_iff, ht.toConsistent.contains_iff, h.identities]

variable (h : ∀ v, ColonFree v → AgreeOn v s t)

include h

/-- The same etags are stored. -/
theorem stored?_eq_of_agree (i : String) : s.stored? i = t.stored? i := by
  refine Option.ext fun etag => ⟨hs.stored?_of_agree h, ?_⟩
  exact ht.stored?_of_agree fun v hv => (h v hv).symm

/-- Every key leads to the same identities, in the same order. -/
theorem identities_eq_of_agree (k : String) : s.identities k = t.identities k := by
  by_cases hk : ColonFree k
  · exact (h k hk).identities
  · have hmem : ∀ i, i ∈ s.identities k ↔ i ∈ t.identities k := by
      intro i
      rw [hs.mem_identities_of_not_colonFree hk, ht.mem_identities_of_not_colonFree hk,
        hs.stored?_eq_of_agree ht h]
    have hperm := (List.perm_ext_iff_of_nodup (hs.nodup_identities k) (ht.nodup_identities k)).mpr
      hmem
    rw [List.eq_replicate_of_mem fun i hi => ((hs.mem_identities_of_not_colonFree hk).mp hi).1,
      hperm.length_eq,
      ← List.eq_replicate_of_mem fun i hi => ((ht.mem_identities_of_not_colonFree hk).mp hi).1]

theorem contains_eq_of_agree (k : String) : s.contains k = t.contains k := by
  rw [Bool.eq_iff_iff, hs.toConsistent.contains_iff, ht.toConsistent.contains_iff,
    hs.identities_eq_of_agree ht h]

theorem get?_eq_of_agree (k : String) : s.get? k = t.get? k := by
  refine Option.ext fun etag => ?_
  rw [hs.toConsistent.get?_eq_some_iff, ht.toConsistent.get?_eq_some_iff]
  simp only [exists_and_left, ← stored?_eq_some_iff, hs.identities_eq_of_agree ht h,
    hs.stored?_eq_of_agree ht h]

theorem size_eq_of_agree : s.size = t.size := by
  refine Dict.size_congr fun i => ?_
  have hstored := congrArg Option.isSome (hs.stored?_eq_of_agree ht h i)
  simpa [LinkStore.stored?, Dict.contains] using hstored

end Paired

end FreshTag.Cache.LinkStore
