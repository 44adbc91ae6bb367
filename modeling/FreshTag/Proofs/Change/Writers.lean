/-
FreshTag/Proofs/Change/Writers.lean

Many callers write to one cache, and their commands come in any order.  An etag
is added under its identity first and under its version then, and between the
two anything may happen: a removal of the version, or another caller that adds
the same etag.  `Covered` is what holds all the same: an etag that is stored is
linked to its version, or some caller is about to link it.

The invariant needs of a caller only that it adds in pairs (`AddsInPairs`),
which both kinds of callers do (`Call.addsInPairs`).  One command of one caller
keeps it (`Covered.advance`), hence any order of commands does
(`Covered.follow`), and where no caller is between its two commands every etag
can be found and removed by its version (`stored_etags_are_linked`).
-/
import FreshTag.Proofs.Cache.Stored
import FreshTag.Proofs.Change.Calls
import FreshTag.Proofs.Change.Deliveries
import Mathlib.Logic.Function.Basic

namespace FreshTag

namespace Cache.Program

variable {α β : Type}

/-- The next command adds an etag of the identity under its version. -/
def Links : Program α → String → Prop
  | .add key etag _, i => key = etag.versionKey ∧ etag.identity = i
  | _, _ => False

/-- The next command is the second one of a pair. -/
def Linking (p : Program α) : Prop :=
  ∃ i, p.Links i

/-- As long as no command fails, an etag that is added under its identity is added under its
version next.  No version that is added has a colon. -/
inductive AddsInPairs : Program α → Prop
  | done (x : α) : AddsInPairs (.done x)
  | report {f : Telemetry → Telemetry} {rest : Program α} :
    AddsInPairs rest → AddsInPairs (.report f rest)
  | find {key : String} {rest : Except Error (Option WeakEtag) → Program α} :
    (∀ found, AddsInPairs (rest found)) → AddsInPairs (.find key rest)
  | first {etag : WeakEtag} {rest : Except Error Bool → Program α} :
    ColonFree etag.version → (rest (.ok true)).Links etag.identity →
    AddsInPairs (rest (.ok true)) → AddsInPairs (.add etag.identity etag rest)
  | second {etag : WeakEtag} {rest : Except Error Bool → Program α} :
    ColonFree etag.version → AddsInPairs (rest (.ok true)) →
    AddsInPairs (.add etag.versionKey etag rest)
  | remove {key : String} {rest : Except Error Bool → Program α} :
    (∀ removed, AddsInPairs (rest (.ok removed))) → AddsInPairs (.remove key rest)

theorem Links.bind {p : Program α} {i : String} (h : p.Links i) (f : α → Program β) :
    (p.bind f).Links i := by
  cases p with
  | add key etag rest => exact h
  | _ => exact absurd h id

theorem AddsInPairs.bind {p : Program α} {f : α → Program β} (hp : AddsInPairs p)
    (hf : ∀ x, AddsInPairs (f x)) : AddsInPairs (p >>= f) := by
  show AddsInPairs (p.bind f)
  induction hp with
  | done x => exact hf x
  | report _ ih => exact .report ih
  | find _ ih => exact .find ih
  | first hcolon hlinks _ ih => exact .first hcolon (hlinks.bind f) ih
  | second hcolon _ ih => exact .second hcolon ih
  | remove _ ih => exact .remove ih

/-- The first command of a pair does not link, since a version without colon is no identity. -/
theorem not_links_first {etag : WeakEtag} {rest : Except Error Bool → Program α} {i : String}
    (hcolon : ColonFree etag.version) : ¬ Links (.add etag.identity etag rest) i :=
  fun h => WeakEtag.identity_ne_of_colonFree hcolon _ h.1

/-! ### Remembering a feature -/

theorem addsInPairs_remembering {etag : WeakEtag} (hcolon : ColonFree etag.version) :
    AddsInPairs (remembering etag) := by
  refine .find fun found => ?_
  rcases found with cause | _ | found
  · exact .done _
  · exact .first hcolon ⟨rfl, rfl⟩ (.second hcolon (.done _))
  · exact .done _

end Cache.Program

namespace Change

open Cache (LinkStore Program Moves Store)
open Cache.Program (AddsInPairs)

/-! ### Applying a change -/

namespace Programs

theorem addsInPairs_log (source : Log.Source) (level : Log.Level) (message : String)
    (fields : List (String × Json.Value)) : AddsInPairs (log source level message fields) :=
  .report (.done ())

theorem addsInPairs_rowOf (e : Event) : AddsInPairs (rowOf e) := by
  unfold rowOf
  rcases Json.parseMap e.row with cause | row
  · exact (addsInPairs_log _ _ _ _).bind fun _ => .done _
  · exact .done _

theorem addsInPairs_invalidate (e : Event) : AddsInPairs (invalidate e) := by
  unfold invalidate
  rcases e.oldVersion with - | version
  · exact (addsInPairs_log _ _ _ _).bind fun _ => .done _
  · exact .remove fun removed => .done _

theorem newVersion_of_etagOf {catalog : Catalog} {now : String} {e : Event} {row : Json.Members}
    {etag : WeakEtag} (h : etagOf catalog now e row = .ok etag) :
    e.newVersion = some etag.version := by
  unfold etagOf at h
  split at h
  · cases h
  · next version hversion =>
    split at h
    · cases h
    · cases h
    · split at h
      · cases h
      · cases h
        exact hversion

theorem addsInPairs_enrich (catalog : Catalog) (now : String) {e : Event} (row : Json.Members)
    (hcolon : e.VersionsColonFree) : AddsInPairs (enrich catalog now e row) := by
  unfold enrich
  rcases hetag : etagOf catalog now e row with reason | etag
  · have hwarn : AddsInPairs (do
        warnOf (reason.table e) reason.message reason.fields
        return false) :=
      (addsInPairs_log _ _ _ _).bind fun _ => .done _
    show AddsInPairs (if _ then _ else _)
    split
    · exact (addsInPairs_log _ _ _ _).bind fun _ => hwarn
    · exact hwarn
  · have hversion : ColonFree etag.version := hcolon.new _ (newVersion_of_etagOf hetag)
    exact .first hversion ⟨rfl, rfl⟩ (.second hversion (.done _))

theorem addsInPairs_apply (catalog : Catalog) (now : String) {e : Event}
    (hcolon : e.VersionsColonFree) : AddsInPairs (apply catalog now e) := by
  unfold apply
  refine AddsInPairs.bind (.report (.done ())) fun _ => ?_
  refine (addsInPairs_log _ _ _ _).bind fun _ => (addsInPairs_rowOf e).bind fun row => ?_
  have hconclude : ∀ removed, AddsInPairs (conclude catalog now e row removed) := by
    intro removed
    unfold conclude
    rcases e.action.beginsVersion with - | -
    · exact .report (.done _)
    · rcases row with - | row
      · exact .report (.done _)
      · exact (addsInPairs_enrich catalog now row hcolon).bind fun added => .report (.done _)
  split
  · exact (addsInPairs_invalidate e).bind hconclude
  · exact hconclude false

end Programs

theorem Call.addsInPairs {call : Call} (hcolon : call.ColonFree) : AddsInPairs call.program := by
  cases call with
  | remember etag => exact (Program.addsInPairs_remembering hcolon).bind fun _ => .done _
  | apply catalog now e =>
    exact (Programs.addsInPairs_apply catalog now hcolon).bind fun _ => .done _

/-! ### Callers and their cache -/

/-- A cache with callers that write to it. -/
structure Writers (ι : Type) where
  cache : Cache
  /-- what is left to do for each of them -/
  callers : ι → Program Answer

namespace Writers

variable {ι : Type}

/-- No caller has begun. -/
def waiting (cache : Cache) (calls : ι → Call) : Writers ι where
  cache := cache
  callers i := (calls i).program

/-- A caller is between the two commands that add an etag. -/
def Between (w : Writers ι) : Prop :=
  ∃ i, (w.callers i).Linking

variable [DecidableEq ι]

/-- The next command of one caller. -/
def advance (w : Writers ι) (i : ι) : Writers ι where
  cache := ((w.callers i).step w.cache).2
  callers := Function.update w.callers i ((w.callers i).step w.cache).1

/-- Commands of callers, in this order. -/
def follow (schedule : List ι) (w : Writers ι) : Writers ι :=
  schedule.foldl advance w

end Writers

/-! ### The invariant -/

variable {ι : Type} {s t : LinkStore} {w : Writers ι}

/-- The cache carries the links, the callers add in pairs, and an etag that is stored is linked to
its version or about to be. -/
structure Covered (s : LinkStore) (w : Writers ι) : Prop where
  carries : w.cache.store.Carries s
  addsInPairs : ∀ j, AddsInPairs (w.callers j)
  colonFree : ∀ {i : String} {etag : WeakEtag}, s.stored? i = some etag → ColonFree etag.version
  linked : ∀ {i : String} {etag : WeakEtag}, s.stored? i = some etag →
    etag.version ∈ s.keysOf i ∨ ∃ j, (w.callers j).Links i

theorem covered_waiting {cache : Cache} (hopened : cache.store.Opened) {calls : ι → Call}
    (hcolon : ∀ i, (calls i).ColonFree) : Covered .empty (.waiting cache calls) where
  carries := hopened.carries
  addsInPairs j := (calls j).addsInPairs (hcolon j)
  colonFree := by simp
  linked := by simp

namespace Covered

variable [DecidableEq ι]

/-- After a command of the caller `j`, an etag is covered if it is new and linked or about to be,
or if it was there before with the same keys, and `j` was not the one to link it. -/
theorem of_step (h : Covered s w) {j : ι} {cache : Cache} {rest : Program Answer}
    (hcarries : cache.store.Carries t) (hrest : AddsInPairs rest)
    (hstored : ∀ {i etag}, t.stored? i = some etag →
      (ColonFree etag.version ∧ (etag.version ∈ t.keysOf i ∨ rest.Links i)) ∨
        (s.stored? i = some etag ∧ t.keysOf i = s.keysOf i ∧ ¬ (w.callers j).Links i)) :
    Covered t { cache := cache, callers := Function.update w.callers j rest } where
  carries := hcarries
  addsInPairs k := by
    show AddsInPairs (Function.update w.callers j rest k)
    by_cases hk : k = j
    · subst hk
      rw [Function.update_self]
      exact hrest
    · rw [Function.update_of_ne hk]
      exact h.addsInPairs k
  colonFree hst := by
    rcases hstored hst with ⟨hcolon, -⟩ | ⟨hbefore, -, -⟩
    exacts [hcolon, h.colonFree hbefore]
  linked {i etag} hst := by
    show _ ∨ ∃ k, (Function.update w.callers j rest k).Links i
    rcases hstored hst with ⟨-, hmem | hlinks⟩ | ⟨hbefore, hkeys, hnot⟩
    · exact Or.inl hmem
    · exact Or.inr ⟨j, by rwa [Function.update_self]⟩
    · rcases h.linked hbefore with hmem | ⟨k, hk⟩
      · exact Or.inl (hkeys ▸ hmem)
      · have hne : k ≠ j := by
          rintro rfl
          exact hnot hk
        exact Or.inr ⟨k, by rwa [Function.update_of_ne hne]⟩

/-- One command of one caller keeps every etag covered. -/
theorem advance (h : Covered s w) (j : ι) : ∃ t, Covered t (w.advance j) := by
  have hadds := h.addsInPairs j
  unfold Writers.advance
  generalize hp : w.callers j = p at hadds
  cases hadds with
  | done x =>
    refine ⟨s, h.of_step h.carries (.done x) fun hst => Or.inr ⟨hst, rfl, ?_⟩⟩
    exact hp ▸ id
  | report hrest =>
    refine ⟨s, h.of_step h.carries hrest fun hst => Or.inr ⟨hst, rfl, ?_⟩⟩
    exact hp ▸ id
  | @find key rest hrest =>
    refine ⟨s, h.of_step (.find key h.carries) (hrest _) fun hst => Or.inr ⟨hst, rfl, ?_⟩⟩
    exact hp ▸ id
  | @first etag rest hcolon hlinks hrest =>
    -- the etag is not linked yet, but `j` is about to link it
    obtain ⟨hanswer, hcarries⟩ := Store.Carries.add etag.identity etag w.cache h.carries
    rw [Program.step_add hanswer]
    refine ⟨s.add etag.identity etag, h.of_step hcarries hrest fun {i e} hst => ?_⟩
    rw [LinkStore.stored?_add] at hst
    split at hst
    · next hi =>
      cases hst
      exact Or.inl ⟨hcolon, Or.inr (hi ▸ hlinks)⟩
    · next hi =>
      refine Or.inr ⟨hst, ?_, hp ▸ Program.not_links_first hcolon⟩
      rw [LinkStore.keysOf_add, if_neg hi]
  | @second etag rest hcolon hrest =>
    -- this links the etag, also where it was removed in between and is stored anew
    obtain ⟨hanswer, hcarries⟩ := Store.Carries.add etag.versionKey etag w.cache h.carries
    rw [Program.step_add hanswer]
    refine ⟨s.add etag.versionKey etag, h.of_step hcarries hrest fun {i e} hst => ?_⟩
    rw [LinkStore.stored?_add] at hst
    rw [LinkStore.keysOf_add]
    split at hst
    · next hi =>
      cases hst
      rw [if_pos hi]
      exact Or.inl ⟨hcolon, Or.inl (Cache.mem_appendNew.mpr (Or.inl rfl))⟩
    · next hi =>
      rw [if_neg hi]
      have hnot : ¬ (w.callers j).Links i := by
        rw [hp]
        exact fun hlinks => hi hlinks.2.symm
      exact Or.inr ⟨hst, rfl, hnot⟩
  | @remove key rest hrest =>
    -- what stays keeps all its keys, its version among them
    obtain ⟨hanswer, hcarries⟩ := Store.Carries.remove key w.cache h.carries
    rw [Program.step_remove hanswer]
    refine ⟨s.without key, h.of_step hcarries (hrest _) fun hst => Or.inr ?_⟩
    obtain ⟨hbefore, hkeys⟩ := h.carries.consistent.of_stored?_without hst
    exact ⟨hbefore, hkeys, hp ▸ id⟩

/-- Any order of commands keeps every etag covered. -/
theorem follow (h : Covered s w) (schedule : List ι) : ∃ t, Covered t (w.follow schedule) := by
  unfold Writers.follow
  induction schedule generalizing s w with
  | nil => exact ⟨s, h⟩
  | cons j schedule ih =>
    obtain ⟨t, ht⟩ := h.advance j
    exact ih ht

end Covered

/-- Whatever callers write to a cache, and in whatever order their commands come: where none of
them is between the two commands that add an etag, every etag that is stored is linked to its
version.  The version is found, and removing it takes the etag out. -/
theorem stored_etags_are_linked [DecidableEq ι] (cache : Cache) (hopened : cache.store.Opened)
    (calls : ι → Call) (hcolon : ∀ i, (calls i).ColonFree) (schedule : List ι)
    (hbetween : ¬ (Writers.follow schedule (.waiting cache calls)).Between) :
    ∃ after, after = (Writers.follow schedule (.waiting cache calls)).cache ∧
      ∀ i etag, after.store.Stores i etag → after.store.Leads etag.version i ∧
        ((Cache.holds etag.version).run after).1 = .ok true ∧
        ((Cache.remove etag.version).run after).1 = .ok true ∧
        ∀ e, ¬ ((Cache.remove etag.version).run after).2.store.Stores i e := by
  obtain ⟨t, h⟩ := (covered_waiting hopened hcolon).follow schedule
  refine ⟨_, rfl, fun i etag hstores => ?_⟩
  obtain ⟨e, he, htext⟩ := h.carries.exists_stored? hstores
  obtain ⟨-, hversion⟩ := WeakEtag.keys_of_text_eq htext
  rw [← hversion]
  have hlinked : e.version ∈ t.keysOf i := by
    rcases h.linked he with hmem | ⟨j, hj⟩
    exacts [hmem, absurd ⟨j, i, hj⟩ hbetween]
  have hmem : i ∈ t.identities e.version := h.carries.consistent.mem_identities_iff.mpr hlinked
  exact ⟨h.carries.leads_iff.mpr hmem, h.carries.reaches hmem⟩

/-! ### A removal between two commands -/

/-- The oak gets from version 10 to version 11. -/
def oakUpdated : Event :=
  plantChange .update (some "10") (some "11") "oak"

/-- A handler has served the oak at version 10, and a listener hears that it was updated. -/
def oakCalls : Bool → Call
  | true => .remember (plantEtag "oak" "10")
  | false => .apply plants "" oakUpdated

/-- The listener removes version 10 when the handler has added the etag under its identity, but not
yet under its version. -/
def oakSchedule : List Bool :=
  [true, true, false, false, false, true, false, false, false]

def oakWriters : Writers Bool :=
  .follow oakSchedule (.waiting { store := .bounded .empty } oakCalls)

theorem not_between_oakWriters : ¬ oakWriters.Between := by
  rintro ⟨handler, i, h⟩
  cases handler
  · cbv at h
  · cbv at h

/-- The version of the etag that is stored under an identity inside the process. -/
def versionIn? (store : Store) (i : String) : Option String :=
  match store with
  | .bounded links => (links.stored? i).map WeakEtag.version
  | _ => none

theorem exists_stores_of_versionIn? {store : Store} {i v : String}
    (h : versionIn? store i = some v) :
    ∃ etag, store.Stores i etag ∧ etag.version = v := by
  cases store with
  | bounded links => exact Option.map_eq_some_iff.mp h
  | disabled => cases h
  | shared p server => cases h

theorem oak_in_oakWriters :
    versionIn? oakWriters.cache.store "public.plants:oak:10" = some "10" := by
  cbv

theorem oakCalls_colonFree (handler : Bool) : (oakCalls handler).ColonFree := by
  cases handler
  · exact ⟨by rintro v ⟨rfl⟩; decide, by rintro v ⟨rfl⟩; decide⟩
  · show ColonFree (plantEtag "oak" "10").version
    decide

/-- The etag of version 10 is stored after all, and it can be found and removed. -/
theorem oak_is_linked :
    ¬ oakWriters.Between ∧ ∃ after etag, after = oakWriters.cache ∧
      after.store.Stores "public.plants:oak:10" etag ∧
      after.store.Leads "10" "public.plants:oak:10" ∧
      ((Cache.holds "10").run after).1 = .ok true ∧
      ((Cache.remove "10").run after).1 = .ok true := by
  refine ⟨not_between_oakWriters, ?_⟩
  obtain ⟨after, hafter, hlinked⟩ := stored_etags_are_linked { store := .bounded .empty } .bounded
    oakCalls oakCalls_colonFree oakSchedule not_between_oakWriters
  have hoak : versionIn? after.store "public.plants:oak:10" = some "10" := by
    rw [hafter]
    exact oak_in_oakWriters
  obtain ⟨etag, hstores, hversion⟩ := exists_stores_of_versionIn? hoak
  obtain ⟨hleads, hholds, hremove, -⟩ := hlinked _ _ hstores
  rw [hversion] at hleads hholds hremove
  exact ⟨after, etag, hafter, hstores, hleads, hholds, hremove⟩

end Change

end FreshTag
