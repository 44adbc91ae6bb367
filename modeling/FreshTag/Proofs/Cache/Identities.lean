/-
FreshTag/Proofs/Cache/Identities.lean

What an identity names.  It has colons between its parts, and a feature id or a
quoted name may have colons of its own.  But the identifier of a table ends where
a server stops reading it, and a version without colon begins behind the last
colon, so of an etag of a table nothing is lost (`WeakEtag.IsOf.identity_eq_iff`),
and no version is an identity (`WeakEtag.identity_ne_of_colonFree`).

A cache that is filled with such etags, each of them under its two keys, therefore
keeps them apart.  What a key leads to and what is stored depends on the additions
alone (`mem_identities_addAll`, `stored?_addAll`): an etag stays until another one of
the same subject is added, and a version leads to the etags of that version that
were added under it (`identities_never_collide`).
-/
import FreshTag.Proofs.Cache.Stored
import FreshTag.Proofs.Database.Spelling

namespace FreshTag

open Catalog (Table)

/-! ### Identities -/

namespace WeakEtag

/-- What an etag may be of: a version of a row of a table. -/
structure Subject where
  schema : String
  table : String
  featureId : String
  version : String
  deriving DecidableEq

/-- The etag is of the subject, and there is no colon in its version. -/
structure IsOf (e : WeakEtag) (x : Subject) : Prop where
  collection : e.collection = (Table.ofName x.schema x.table).id
  featureId : e.featureId = x.featureId
  version : e.version = x.version
  colonFree : ColonFree e.version

/-- Two etags have one identity exactly if they are of the same subject. -/
theorem IsOf.identity_eq_iff {e f : WeakEtag} {x y : Subject} (he : e.IsOf x) (hf : f.IsOf y) :
    e.identity = f.identity ↔ x = y := by
  constructor
  · intro h
    have hversion : e.version = f.version := version_eq_of_identity_eq he.colonFree hf.colonFree h
    have hl := congrArg String.toList h
    rw [toList_identity, toList_identity, List.append_assoc, List.append_assoc, he.collection,
      hf.collection] at hl
    -- the colon behind a table ends its identifier, whatever colons follow
    obtain ⟨⟨hschema, htable⟩, hrest⟩ := Database.identifier_append_inj rfl rfl hl
    rw [hversion] at hrest
    have hfeature : e.featureId = f.featureId :=
      String.toList_inj.mp (List.append_cancel_right (List.cons.inj hrest).2)
    obtain ⟨schema, table, featureId, version⟩ := x
    obtain ⟨schema', table', featureId', version'⟩ := y
    obtain rfl : schema = schema' := hschema
    obtain rfl : table = table' := htable
    obtain rfl : featureId = featureId' := he.featureId.symm.trans (hfeature.trans hf.featureId)
    obtain rfl : version = version' := he.version.symm.trans (hversion.trans hf.version)
    rfl
  · rintro rfl
    unfold identity
    rw [he.collection, he.featureId, he.version, hf.collection, hf.featureId, hf.version]

end WeakEtag

namespace Cache

open WeakEtag (Subject)

/-! ### Links that were only added -/

/-- An etag with the key that it is stored under. -/
abbrev Addition := String × WeakEtag

namespace LinkStore

/-- The store after some additions. -/
def addAll (additions : List Addition) (s : LinkStore) : LinkStore :=
  additions.foldl (fun s a => s.add a.1 a.2) s

variable {s : LinkStore} {additions : List Addition}

/-- A key leads to what it led to before, and to what was added under it. -/
theorem mem_identities_addAll {key i : String} :
    i ∈ (s.addAll additions).identities key ↔
      i ∈ s.identities key ∨ ∃ e, (key, e) ∈ additions ∧ e.identity = i := by
  unfold addAll
  induction additions generalizing s with
  | nil => simp
  | cons a additions ih =>
    obtain ⟨k, e⟩ := a
    rw [List.foldl_cons, ih, identities_add]
    by_cases hk : key = k
    · subst hk
      simp only [if_true, mem_appendNew, List.mem_cons, Prod.mk.injEq, true_and]
      constructor
      · rintro ((rfl | hi) | ⟨f, hf, rfl⟩)
        exacts [.inr ⟨e, .inl rfl, rfl⟩, .inl hi, .inr ⟨f, .inr hf, rfl⟩]
      · rintro (hi | ⟨f, rfl | hf, rfl⟩)
        exacts [.inl (.inr hi), .inl (.inl rfl), .inr ⟨f, hf, rfl⟩]
    · simp [hk]

/-- Additions of other identities leave an etag where it is. -/
theorem stored?_addAll_of_ne {i : String} (h : ∀ a ∈ additions, a.2.identity ≠ i) :
    (s.addAll additions).stored? i = s.stored? i := by
  unfold addAll
  induction additions generalizing s with
  | nil => rfl
  | cons a additions ih =>
    rw [List.foldl_cons, ih fun b hb => h b (List.mem_cons_of_mem a hb), stored?_add,
      if_neg (h a List.mem_cons_self).symm]

/-- The last etag of an identity that was added is the one that is stored. -/
theorem stored?_addAll {before after : List Addition} {key : String} {e : WeakEtag}
    (h : ∀ a ∈ after, a.2.identity ≠ e.identity) :
    (s.addAll (before ++ (key, e) :: after)).stored? e.identity = some e := by
  have hafter : s.addAll (before ++ (key, e) :: after) =
      addAll after ((s.addAll before).add key e) := List.foldl_append ..
  rw [hafter, stored?_addAll_of_ne h, stored?_add, if_pos rfl]

/-- What is stored was there before, or it was added. -/
theorem exists_of_stored?_addAll {i : String} {e : WeakEtag}
    (h : (s.addAll additions).stored? i = some e) :
    s.stored? i = some e ∨ ∃ key, (key, e) ∈ additions := by
  unfold addAll at h
  induction additions generalizing s with
  | nil => exact .inl h
  | cons a additions ih =>
    rcases ih h with hs | ⟨key, hmem⟩
    · rw [stored?_add] at hs
      split at hs
      · obtain rfl := Option.some.inj hs
        exact .inr ⟨a.1, List.mem_cons_self⟩
      · exact .inl hs
    · exact .inr ⟨key, List.mem_cons_of_mem a hmem⟩

end LinkStore

/-! ### Caches that were only filled -/

/-- The cache after some additions. -/
def fill (additions : List Addition) (c : Cache) : Cache :=
  performAll (additions.map fun a => .add a.1 a.2) c

/-- What a cache answers where it finds an etag: from a server it gets the text of it. -/
def Store.given : Store → WeakEtag → Except Error (Option WeakEtag)
  | .shared .., etag => decoded etag.text
  | _, etag => .ok (some etag)

namespace Store.Carries

variable {s : LinkStore}

theorem fill {c : Cache} (hc : c.store.Carries s) (additions : List Addition) :
    (Cache.fill additions c).store.Carries (s.addAll additions) := by
  unfold Cache.fill performAll LinkStore.addAll
  induction additions generalizing c s with
  | nil => exact hc
  | cons a additions ih => exact ih (add a.1 a.2 c hc).2

/-- What the links store, the store does. -/
theorem stores {store : Store} (h : store.Carries s) {i : String} {etag : WeakEtag}
    (hst : s.stored? i = some etag) : store.Stores i etag := by
  cases h with
  | bounded => exact hst
  | shared _ h =>
    refine (h.shows.value i).trans ?_
    rw [hst]
    rfl

/-- Finding by a key that leads to something gives an etag that the key leads to. -/
theorem find_answer {c : Cache} (hc : c.store.Carries s) {key i : String}
    (hi : i ∈ s.identities key) :
    ∃ etag, s.Reaches key etag ∧ ((Cache.find key).run c).1 = c.store.given etag := by
  have hne : s.get? key ≠ none := fun hnone =>
    List.ne_nil_of_mem hi (hc.consistent.get?_eq_none_iff.mp hnone)
  generalize hstore : c.store = store at hc
  cases hc with
  | bounded h =>
    obtain ⟨etag, hget⟩ := Option.ne_none_iff_exists'.mp hne
    obtain ⟨j, stored, hlast, hst, rfl⟩ := h.get?_eq_some_iff.mp hget
    refine ⟨stored.etag, ⟨j, List.mem_of_getLast? hlast, ?_⟩, ?_⟩
    · exact LinkStore.stored?_eq_some_iff.mpr ⟨stored, hst, rfl⟩
    · rw [(Takes.find s key).answer_eq hstore, hget]
      rfl
  | shared received h =>
    obtain ⟨answer, hrun, hnone, hsome⟩ := h.getText key
    rcases answer with - | text
    · exact absurd (hnone.mp rfl) hne
    · obtain ⟨etag, hreaches, rfl⟩ := hsome text rfl
      exact ⟨etag, hreaches, (Serves.find_some hrun c ⟨received, hstore⟩).1⟩

end Store.Carries

/-! ### Etags under their own keys -/

/-- Etags of tables, each under one of its own keys. -/
def OwnKeys (additions : List Addition) : Prop :=
  ∀ key e, (key, e) ∈ additions → key ∈ e.keys ∧ ∃ x, e.IsOf x

/-- Each etag under its identity and then under its version. -/
def underBothKeys (etags : List WeakEtag) : List Addition :=
  etags.flatMap fun e => e.keys.map fun key => (key, e)

theorem ownKeys_underBothKeys {etags : List WeakEtag} (h : ∀ e ∈ etags, ∃ x, e.IsOf x) :
    OwnKeys (underBothKeys etags) := by
  intro key e hmem
  obtain ⟨e', he, hkeys⟩ := List.mem_flatMap.mp hmem
  obtain ⟨key', hkey, heq⟩ := List.mem_map.mp hkeys
  obtain ⟨rfl, rfl⟩ := Prod.mk.inj heq
  exact ⟨hkey, h e' he⟩

namespace OwnKeys

variable {additions : List Addition} (hown : OwnKeys additions)

include hown

/-- Under an identity are only etags of that identity. -/
theorem identity_eq {e f : WeakEtag} (h : (f.identity, e) ∈ additions) :
    e.identity = f.identity := by
  obtain ⟨hkey, x, hx⟩ := hown _ e h
  rcases List.mem_pair.mp hkey with hkey | hkey
  · exact hkey.symm
  · exact absurd hkey (WeakEtag.identity_ne_of_colonFree hx.colonFree f)

/-- Under a text without colon are only etags of that version. -/
theorem version_eq {v : String} (hv : ColonFree v) {e : WeakEtag} (h : (v, e) ∈ additions) :
    e.version = v := by
  obtain ⟨hkey, -⟩ := hown v e h
  rcases List.mem_pair.mp hkey with hkey | hkey
  · exact absurd hkey.symm (WeakEtag.identity_ne_of_colonFree hv e)
  · exact hkey.symm

variable {s : LinkStore} {c : Cache} (hc : c.store.Carries (.addAll additions .empty))

include hc

omit hown in
/-- A key leads to what was added under it. -/
theorem leads_iff {key i : String} :
    c.store.Leads key i ↔ ∃ e, (key, e) ∈ additions ∧ e.identity = i := by
  rw [hc.leads_iff, LinkStore.mem_identities_addAll]
  exact or_iff_right List.not_mem_nil

/-- An identity leads to no other one. -/
theorem eq_of_leads_identity {e : WeakEtag} {i : String} (h : c.store.Leads e.identity i) :
    i = e.identity := by
  obtain ⟨f, hf, rfl⟩ := (leads_iff hc).mp h
  exact hown.identity_eq hf

/-- A version leads to the etags of this version that were added under it. -/
theorem leads_version_iff {v i : String} (hv : ColonFree v) :
    c.store.Leads v i ↔ ∃ e, (v, e) ∈ additions ∧ e.version = v ∧ e.identity = i := by
  rw [leads_iff hc]
  constructor
  · rintro ⟨e, he, hi⟩
    exact ⟨e, he, hown.version_eq hv he, hi⟩
  · rintro ⟨e, he, -, hi⟩
    exact ⟨e, he, hi⟩

theorem holds_version_iff {v : String} (hv : ColonFree v) :
    ((holds v).run c).1 = .ok true ↔ ∃ e, (v, e) ∈ additions ∧ e.version = v := by
  rw [(Store.Carries.holds v c hc).1, Except.ok.injEq, hc.consistent.contains_iff_exists]
  simp only [← hc.leads_iff, hown.leads_version_iff hc hv]
  constructor
  · rintro ⟨i, e, he, hversion, -⟩
    exact ⟨e, he, hversion⟩
  · rintro ⟨e, he, hversion⟩
    exact ⟨e.identity, e, he, hversion, rfl⟩

/-- What is found by a version is an etag of it. -/
theorem find_version {v : String} (hv : ColonFree v) {e : WeakEtag} (he : (v, e) ∈ additions) :
    ∃ k f, (k, f) ∈ additions ∧ f.version = v ∧ ((find v).run c).1 = c.store.given f := by
  have hi := hc.leads_iff.mp ((leads_iff hc).mpr ⟨e, he, rfl⟩)
  obtain ⟨f, ⟨i, hi, hst⟩, hfound⟩ := hc.find_answer hi
  obtain ⟨k, hk⟩ := (LinkStore.exists_of_stored?_addAll hst).resolve_left nofun
  refine ⟨k, f, hk, ?_, hfound⟩
  -- it is stored under the identity of an etag that was added under the version
  obtain ⟨g, hg, hversion, rfl⟩ := (hown.leads_version_iff hc hv).mp (hc.leads_iff.mpr hi)
  obtain ⟨-, x, hx⟩ := hown k f hk
  obtain ⟨-, y, hy⟩ := hown v g hg
  obtain ⟨stored, hstored, rfl⟩ := LinkStore.stored?_eq_some_iff.mp hst
  have hidentity := hc.consistent.own_identity hstored
  exact (WeakEtag.version_eq_of_identity_eq hx.colonFree hy.colonFree hidentity).trans hversion

omit hc in
/-- An etag stays as long as no other one of its subject is added. -/
theorem stored?_last {before after : List Addition} {key : String} {e : WeakEtag} {x : Subject}
    (hadditions : additions = before ++ (key, e) :: after) (he : e.IsOf x)
    (hafter : ∀ k f, (k, f) ∈ after → ¬ f.IsOf x) :
    (LinkStore.addAll additions .empty).stored? e.identity = some e := by
  subst hadditions
  refine LinkStore.stored?_addAll fun a ha hsame => ?_
  obtain ⟨-, y, hy⟩ := hown a.1 a.2 (List.mem_append_right before (.tail _ ha))
  obtain rfl := (hy.identity_eq_iff he).mp hsame
  exact hafter a.1 a.2 ha hy

/-- It is found by its identity, if that is one of the keys it was added under. -/
theorem find_identity {e f : WeakEtag} (hf : (e.identity, f) ∈ additions)
    (hst : (LinkStore.addAll additions .empty).stored? e.identity = some e) :
    ((find e.identity).run c).1 = c.store.given e := by
  have hi := hc.leads_iff.mp ((leads_iff hc).mpr ⟨f, hf, rfl⟩)
  obtain ⟨found, ⟨i, hi, hi'⟩, hfound⟩ := hc.find_answer hi
  obtain rfl := hown.eq_of_leads_identity hc (hc.leads_iff.mpr hi)
  obtain rfl := Option.some.inj (hst.symm.trans hi')
  exact hfound

end OwnKeys

/-- Whatever the names of the tables and whatever the feature ids: the identities of two etags are
the same exactly if schema, table, feature id and version are, and no identity is a text without
colon.

So in a cache of either kind that is filled with etags under their two keys, an etag stays and is
found by its identity, until another one of the same subject is added.  A version leads to the
etags of this version that were added under it, and finds one of them. -/
theorem identities_never_collide {store : Store} (hopened : store.Opened) (reports : Telemetry)
    {additions : List Addition} (hown : OwnKeys additions) :
    (∀ (e f : WeakEtag) (x y : Subject), e.IsOf x → f.IsOf y →
      (e.identity = f.identity ↔ x = y)) ∧
    (∀ (e : WeakEtag) (v : String), ColonFree v → e.identity ≠ v) ∧
    ∃ c, c = fill additions { store, telemetry := reports } ∧
      (∀ before key e after x, additions = before ++ (key, e) :: after → e.IsOf x →
        (∀ k f, (k, f) ∈ after → ¬ f.IsOf x) →
        c.store.Stores e.identity e ∧ (∀ i, c.store.Leads e.identity i → i = e.identity) ∧
          ∀ f, (e.identity, f) ∈ additions → ((find e.identity).run c).1 = c.store.given e) ∧
      ∀ v, ColonFree v →
        (∀ i, c.store.Leads v i ↔ ∃ e, (v, e) ∈ additions ∧ e.version = v ∧ e.identity = i) ∧
        (((holds v).run c).1 = .ok true ↔ ∃ e, (v, e) ∈ additions ∧ e.version = v) ∧
        ∀ e, (v, e) ∈ additions → ∃ k f, (k, f) ∈ additions ∧ f.version = v ∧
          ((find v).run c).1 = c.store.given f := by
  have hc := hopened.carries.fill (c := { store, telemetry := reports }) additions
  refine ⟨fun e f x y he hf => he.identity_eq_iff hf,
    fun e v hv => WeakEtag.identity_ne_of_colonFree hv e, _, rfl, ?_, ?_⟩
  · intro before key e after x hadditions he hafter
    have hst := hown.stored?_last hadditions he hafter
    exact ⟨hc.stores hst, fun i => hown.eq_of_leads_identity hc,
      fun f hf => hown.find_identity hc hf hst⟩
  · intro v hv
    exact ⟨fun i => hown.leads_version_iff hc hv, hown.holds_version_iff hc hv,
      fun e he => hown.find_version hc hv he⟩

/-- The same characters and colons, cut in two places, on a server. -/
theorem colons_in_names_do_not_collide :
    ∃ e f c, e.IsOf ⟨"public", "t", "a:b", "10"⟩ ∧ f.IsOf ⟨"public", "t:a", "b", "10"⟩ ∧
      c = fill (underBothKeys [e, f]) { store := .shared (.ofSetting "etags") {} } ∧
      c.store.Stores e.identity e ∧ ((find e.identity).run c).1 = c.store.given e ∧
      c.store.Stores f.identity f ∧ ((find f.identity).run c).1 = c.store.given f := by
  obtain ⟨e, he⟩ : ∃ e : WeakEtag, e.IsOf ⟨"public", "t", "a:b", "10"⟩ :=
    ⟨⟨(Table.ofName "public" "t").id, "a:b", "10", "", none⟩, rfl, rfl, rfl, by decide⟩
  obtain ⟨f, hf⟩ : ∃ f : WeakEtag, f.IsOf ⟨"public", "t:a", "b", "10"⟩ :=
    ⟨⟨(Table.ofName "public" "t:a").id, "b", "10", "", none⟩, rfl, rfl, rfl, by decide⟩
  have hown : OwnKeys (underBothKeys [e, f]) := by
    refine ownKeys_underBothKeys fun g hg => ?_
    rcases List.mem_pair.mp hg with rfl | rfl
    exacts [⟨_, he⟩, ⟨_, hf⟩]
  obtain ⟨hiff, -, c, hc, hlast, -⟩ :=
    identities_never_collide (.shared (.ofSetting "etags") 0) {} hown
  have hdiffer : ¬ f.IsOf ⟨"public", "t", "a:b", "10"⟩ := fun h =>
    absurd ((hiff f f _ _ h hf).mp rfl) (by decide)
  -- the last addition of the one is in front of those of the other
  obtain ⟨hstores, -, hfind⟩ := hlast [(e.identity, e)] e.versionKey e
    [(f.identity, f), (f.versionKey, f)] _ rfl he (by
      intro k g hg
      rcases List.mem_pair.mp hg with hg | hg
      all_goals exact (Prod.mk.inj hg).2 ▸ hdiffer)
  obtain ⟨hstores', -, hfind'⟩ := hlast [(e.identity, e), (e.versionKey, e), (f.identity, f)]
    f.versionKey f [] _ rfl hf nofun
  exact ⟨e, f, c, he, hf, hc, hstores, hfind e List.mem_cons_self, hstores',
    hfind' f (.tail _ (.tail _ List.mem_cons_self))⟩

end Cache

end FreshTag
