/-
FreshTag/Proofs/Change/Application.lean

What a completed change does to the links of a cache.  A change may end a
version (`Event.Ends`) and may produce an etag (`Event.Produces`); neither
depends on the cache.  Applying it removes the version that it ends and then
writes the etag that it produces under its two keys, wherever the links are
(`moves_apply`), so that afterwards the cache holds the new etag and what it
held before of the other versions (`stored?_applied`).

The order matters where both versions are the same, as they are when one
transaction writes a row twice: the removal comes first, and the new etag stays.
-/
import FreshTag.Change.Processor
import FreshTag.Proofs.Cache.Bounded

namespace FreshTag.Change

open Cache (LinkSteps LinkStore Moves Store Takes)

/-! ### What a change ends and what it produces -/

namespace Event

/-- The change ends a version of a row. -/
def Ends (e : Event) (version : String) : Prop :=
  (e.action = .update ∨ e.action = .delete) ∧ e.oldVersion = some version

/-- The change begins a version of a row that can be cached, and this is its etag. -/
inductive Produces (catalog : Catalog) (now : String) (e : Event) : WeakEtag → Prop
  | intro {row : Json.Members} {version id : String} {table : Catalog.Table} :
    e.action = .insert ∨ e.action = .update →
    Json.parseMap e.row = .ok row →
    e.newVersion = some version →
    catalog.lookup e.id = .ok (some table) →
    featureId table row = .ok id →
    Produces catalog now e
      { collection := e.id, featureId := id, version, lastModified := now, data := some row }

/-- The versions of the change contain no colon. -/
structure VersionsColonFree (e : Event) : Prop where
  old : ∀ v, e.oldVersion = some v → ColonFree v
  new : ∀ v, e.newVersion = some v → ColonFree v

/-- The version that the change ends. -/
def ended? (e : Event) : Option String :=
  if e.action.endsVersion then e.oldVersion else none

/-- The etag that the change produces. -/
def produced? (catalog : Catalog) (now : String) (e : Event) : Option WeakEtag :=
  match e.action.beginsVersion, Json.parseMap e.row with
  | true, .ok row => (etagOf catalog now e row).toOption
  | _, _ => none

theorem ended?_eq_some_iff {e : Event} {v : String} : e.ended? = some v ↔ e.Ends v := by
  unfold ended? Ends
  cases e.action <;> simp [Action.endsVersion]

theorem produced?_eq_some_iff {catalog : Catalog} {now : String} {e : Event} {etag : WeakEtag} :
    e.produced? catalog now = some etag ↔ e.Produces catalog now etag := by
  constructor
  · intro h
    unfold produced? at h
    split at h
    · next row hbegins hrow =>
      have hact : e.action = .insert ∨ e.action = .update := by
        cases ha : e.action <;> simp [ha, Action.beginsVersion] at hbegins ⊢
      unfold etagOf at h
      split at h
      · cases h
      · next version hversion =>
        split at h
        · cases h
        · cases h
        · next table htable =>
          split at h
          · cases h
          · next id hid =>
            cases h
            exact .intro hact hrow hversion htable hid
    · cases h
  · rintro ⟨hact, hrow, hversion, htable, hid⟩
    have hbegins : e.action.beginsVersion = true := by
      rcases hact with h | h <;> simp [h, Action.beginsVersion]
    simp [produced?, hbegins, hrow, etagOf, hversion, htable, hid, Except.toOption]

/-- At most one etag is produced. -/
theorem Produces.unique {catalog : Catalog} {now : String} {e : Event} {etag etag' : WeakEtag}
    (h : e.Produces catalog now etag) (h' : e.Produces catalog now etag') : etag = etag' := by
  rw [← produced?_eq_some_iff] at h h'
  exact Option.some.inj (h.symm.trans h')

theorem Produces.newVersion {catalog : Catalog} {now : String} {e : Event} {etag : WeakEtag}
    (h : e.Produces catalog now etag) : e.newVersion = some etag.version := by
  obtain ⟨-, -, hversion, -, -⟩ := h
  exact hversion

theorem Produces.collection {catalog : Catalog} {now : String} {e : Event} {etag : WeakEtag}
    (h : e.Produces catalog now etag) : etag.collection = e.id := by
  obtain ⟨-, -, -, -, -⟩ := h
  rfl

theorem VersionsColonFree.ended {e : Event} (he : e.VersionsColonFree) {v : String}
    (h : e.Ends v) : ColonFree v :=
  he.old v h.2

theorem VersionsColonFree.produced {e : Event} (he : e.VersionsColonFree) {catalog : Catalog}
    {now : String} {etag : WeakEtag} (h : e.Produces catalog now etag) : ColonFree etag.version :=
  he.new _ h.newVersion

/-! ### The links afterwards -/

/-- The links without the version that the change ends. -/
def invalidated (e : Event) (s : LinkStore) : LinkStore :=
  match e.ended? with
  | some v => s.without v
  | none => s

/-- The links after the change. -/
def applied (catalog : Catalog) (now : String) (e : Event) (s : LinkStore) : LinkStore :=
  match e.produced? catalog now with
  | some etag => (e.invalidated s).addPair etag
  | none => e.invalidated s

/-- What becomes of the change. -/
def outcome (catalog : Catalog) (now : String) (e : Event) (s : LinkStore) : Outcome where
  removed := e.ended?.any s.contains
  added := (e.produced? catalog now).isSome

end Event

section

variable {catalog : Catalog} {now : String} {e : Event} {s : LinkStore}

theorem Event.invalidated_of_ends {v : String} (h : e.Ends v) : e.invalidated s = s.without v := by
  simp [Event.invalidated, Event.ended?_eq_some_iff.mpr h]

theorem Event.invalidated_of_forall_not_ends (h : ∀ v, ¬ e.Ends v) : e.invalidated s = s := by
  have hnone : e.ended? = none := by
    refine Option.eq_none_iff_forall_ne_some.mpr fun v hv => ?_
    exact h v (Event.ended?_eq_some_iff.mp hv)
  simp [Event.invalidated, hnone]

/-- A change ends one version, or none. -/
theorem Event.ends_or_forall_not (e : Event) : (∃ v, e.Ends v) ∨ ∀ v, ¬ e.Ends v := by
  by_cases h : ∃ v, e.Ends v
  · exact Or.inl h
  · exact Or.inr (not_exists.mp h)

theorem Event.Ends.unique {v w : String} (hv : e.Ends v) (hw : e.Ends w) : v = w :=
  Option.some.inj (hv.2.symm.trans hw.2)

theorem invalidated_paired (he : e.VersionsColonFree) (hs : s.Paired) :
    (e.invalidated s).Paired := by
  rcases e.ends_or_forall_not with ⟨v, hv⟩ | hno
  · rw [Event.invalidated_of_ends hv]
    exact hs.without (he.ended hv)
  · rw [Event.invalidated_of_forall_not_ends hno]
    exact hs

/-- The etags of the version that ends are gone, the others are there. -/
theorem stored?_invalidated (he : e.VersionsColonFree) (hs : s.Paired) {i : String}
    {etag : WeakEtag} :
    (e.invalidated s).stored? i = some etag ↔
      s.stored? i = some etag ∧ ¬ e.Ends etag.version := by
  -- the links are not looked at; only whether the change ends a version
  rcases e.ends_or_forall_not with ⟨v, hv⟩ | hno
  · rw [Event.invalidated_of_ends hv, hs.stored?_without (he.ended hv),
      Option.filter_eq_some_iff]
    have hends : e.Ends etag.version ↔ etag.version = v := by
      constructor
      · intro h
        exact h.unique hv
      · rintro rfl
        exact hv
    simp [hends]
  · rw [Event.invalidated_of_forall_not_ends hno]
    simp [hno]

/-- Applying a change keeps the store paired. -/
theorem applied_paired (he : e.VersionsColonFree) (hs : s.Paired) :
    (e.applied catalog now s).Paired := by
  unfold Event.applied
  split
  · next etag h =>
    exact (invalidated_paired he hs).addPair (he.produced (Event.produced?_eq_some_iff.mp h))
  · exact invalidated_paired he hs

/-- After a change the cache holds the etag that it produced, and under other identities what it
held before of the versions that did not end. -/
theorem stored?_applied (he : e.VersionsColonFree) (hs : s.Paired) {i : String}
    {etag : WeakEtag} :
    (e.applied catalog now s).stored? i = some etag ↔
      (e.Produces catalog now etag ∧ etag.identity = i) ∨
        (s.stored? i = some etag ∧ ¬ e.Ends etag.version ∧
          ∀ new, e.Produces catalog now new → new.identity ≠ i) := by
  unfold Event.applied
  split
  · next new h =>
    have hnew := Event.produced?_eq_some_iff.mp h
    have honly : ∀ f, e.Produces catalog now f ↔ f = new := by
      intro f
      constructor
      · exact fun hf => hf.unique hnew
      · rintro rfl
        exact hnew
    rw [LinkStore.stored?_addPair]
    simp only [honly, forall_eq]
    -- the new etag takes the place of an older one of its identity
    by_cases hi : i = new.identity
    · subst hi
      simp only [if_true, Option.some.injEq, ne_eq, not_true_eq_false, and_false, or_false]
      constructor
      · rintro rfl
        exact ⟨rfl, rfl⟩
      · exact fun h => h.1.symm
    · rw [if_neg hi, stored?_invalidated he hs]
      constructor
      · rintro ⟨hst, hends⟩
        exact Or.inr ⟨hst, hends, Ne.symm hi⟩
      · rintro (⟨rfl, hid⟩ | ⟨hst, hends, -⟩)
        exacts [absurd hid.symm hi, ⟨hst, hends⟩]
  · next h =>
    have hno : ∀ f, ¬ e.Produces catalog now f := by
      intro f hf
      rw [Event.produced?_eq_some_iff.mpr hf] at h
      cases h
    rw [stored?_invalidated he hs]
    simp [hno]

theorem outcome_added_iff :
    (e.outcome catalog now s).added = true ↔ ∃ etag, e.Produces catalog now etag := by
  simp [Event.outcome, Option.isSome_iff_exists, Event.produced?_eq_some_iff]

theorem outcome_removed_iff (he : e.VersionsColonFree) (hs : s.Paired) :
    (e.outcome catalog now s).removed = true ↔ ∃ v, e.Ends v ∧ s.HoldsVersion v := by
  unfold Event.outcome
  rw [Option.any_eq_true]
  simp only [Event.ended?_eq_some_iff]
  constructor
  · rintro ⟨v, hv, hin⟩
    exact ⟨v, hv, (hs.contains_iff (he.ended hv)).mp hin⟩
  · rintro ⟨v, hv, hin⟩
    exact ⟨v, hv, (hs.contains_iff (he.ended hv)).mpr hin⟩

end

/-! ### The steps of an application -/

section

variable {R : LinkStore → Store → Prop} (hR : LinkSteps R)

theorem moves_warnOf (table message : String) (fields : List (String × Json.Value))
    (P : Store → Prop) : Moves (warnOf table message fields) P () P :=
  Moves.log _ _ _ _

theorem moves_rowOf (e : Event) (P : Store → Prop) :
    Moves (rowOf e) P (Json.parseMap e.row).toOption P := by
  unfold rowOf
  rcases Json.parseMap e.row with cause | row
  · exact (moves_warnOf _ _ _ P).bind (Moves.pure _)
  · exact Moves.pure _

include hR

theorem moves_store (etag : WeakEtag) (key : String) (s : LinkStore) :
    Moves (store etag key) (R s) true (R (s.add key etag)) :=
  (hR.add s key etag).bind (Moves.pure _)

theorem moves_invalidate (e : Event) (s : LinkStore) :
    Moves (invalidate e) (R s) (e.oldVersion.any s.contains)
      (R (match e.oldVersion with | some v => s.without v | none => s)) := by
  unfold invalidate
  rcases e.oldVersion with - | v
  · exact (moves_warnOf _ _ _ _).bind (Moves.pure _)
  · exact (hR.remove s v).bind (Moves.pure _)

theorem moves_enrich (catalog : Catalog) (now : String) (e : Event) (row : Json.Members)
    (s : LinkStore) :
    Moves (enrich catalog now e row) (R s) (etagOf catalog now e row).toOption.isSome
      (R (match (etagOf catalog now e row).toOption with
        | some etag => s.addPair etag
        | none => s)) := by
  unfold enrich
  rcases etagOf catalog now e row with reason | etag
  · have hwarn : Moves (do warnOf (reason.table e) reason.message reason.fields; return false)
        (R s) false (R s) :=
      (moves_warnOf _ _ _ _).bind (Moves.pure _)
    show Moves (if _ then _ else _) (R s) _ _
    split
    · exact (Moves.log _ _ _ _).bind hwarn
    · exact hwarn
  · exact (moves_store hR etag etag.identity s).bind
      ((moves_store hR etag etag.versionKey _).bind (Moves.pure _))

/-- A change goes on where it has removed the version that it ends, if it ends one. -/
theorem moves_removal {α : Type} (e : Event) {s u : LinkStore} {f : Bool → StateM Cache α}
    {y : Bool → α} (hf : ∀ removed, Moves (f removed) (R (e.invalidated s)) (y removed) (R u)) :
    Moves (if e.action.endsVersion then invalidate e >>= f else pure false >>= f) (R s)
      (y (e.ended?.any s.contains)) (R u) := by
  unfold Event.invalidated Event.ended? at *
  by_cases hends : e.action.endsVersion = true
  · rw [if_pos hends] at hf ⊢
    rw [if_pos hends]
    exact (moves_invalidate hR e s).bind (hf _)
  · rw [if_neg hends] at hf ⊢
    rw [if_neg hends]
    exact (Moves.pure _).bind (hf _)

/-- Applying a change removes the version that it ends, and then writes what it produces. -/
theorem moves_apply (catalog : Catalog) (now : String) (e : Event) (s : LinkStore) :
    Moves (apply catalog now e) (R s) (e.outcome catalog now s) (R (e.applied catalog now s)) := by
  have hend : ∀ removed added t,
      Moves (do Cache.report (·.count .applyTime); return ({ removed, added } : Outcome)) (R t)
        { removed, added } (R t) :=
    fun removed added t => (Moves.report _).bind (Moves.pure _)
  refine (Moves.report _).bind <| (Moves.log _ _ _ _).bind <| (moves_rowOf e _).bind ?_
  -- what follows the removal is the same whatever the removal answers
  let outcome (removed : Bool) : Outcome := ⟨removed, (e.produced? catalog now).isSome⟩
  show Moves (if _ then _ else _) (R s) (outcome (e.ended?.any s.contains)) _
  refine moves_removal hR (y := outcome) e fun removed => ?_
  unfold Event.applied
  rcases hbegins : e.action.beginsVersion with - | -
  · have hnone : e.produced? catalog now = none := by simp [Event.produced?, hbegins]
    simp only [outcome, hnone]
    exact (Moves.pure _).bind (hend removed _ _)
  · rcases hrow : Json.parseMap e.row with cause | row
    · have hnone : e.produced? catalog now = none := by simp [Event.produced?, hrow]
      simp only [outcome, hnone]
      exact (Moves.pure _).bind (hend removed _ _)
    · have hetag : e.produced? catalog now = (etagOf catalog now e row).toOption := by
        simp [Event.produced?, hbegins, hrow]
      simp only [outcome, hetag]
      exact (moves_enrich hR catalog now e row _).bind (hend removed _ _)

end

theorem takes_apply (catalog : Catalog) (now : String) (e : Event) (s : LinkStore) :
    Takes (apply catalog now e) s (e.outcome catalog now s) (e.applied catalog now s) :=
  moves_apply Cache.linkSteps_bounded catalog now e s

end FreshTag.Change
