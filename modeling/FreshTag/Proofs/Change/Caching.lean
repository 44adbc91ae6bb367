/-
FreshTag/Proofs/Change/Caching.lean

What a listener has put into a cache, of whichever kind, and whatever its server
refuses.  Where it says that it added a row, the change has an etag, and both
keys of the etag lead to it (`apply_links`).  It adds that etag under those keys
and nothing else (`Programs.addsOnly_apply`).
-/
import FreshTag.Proofs.Cache.Additions
import FreshTag.Proofs.Change.Calls

namespace FreshTag.Change

open Cache (Program)
open Cache.Program (AddsOnly)

variable {catalog : Catalog} {now : String} {e : Event} {c : Cache}

/-! ### The keys of the etag -/

/-- Storing is adding: it leaves the same store, and it answers yes only if the adding did. -/
theorem store_eq_add (etag : WeakEtag) (key : String) (c : Cache) :
    (store etag key c).2.store = ((Cache.add key etag).run c).2.store ∧
      ((store etag key c).1 = true → ((Cache.add key etag).run c).1 = .ok true) := by
  unfold store
  rcases hadd : (Cache.add key etag).run c with ⟨cause | stored, after⟩
  · rw [Cache.bind_of_eq hadd]
    exact ⟨rfl, nofun⟩
  · rw [Cache.bind_of_eq hadd]
    exact ⟨rfl, congrArg Except.ok⟩

/-- Where an etag was stored under a key, the key leads to it. -/
theorem store_answers {etag : WeakEtag} {key : String} (h : (store etag key c).1 = true) :
    (store etag key c).2.store.Leads key etag.identity ∧
      (store etag key c).2.store.Stores etag.identity etag := by
  obtain ⟨hstore, hanswer⟩ := store_eq_add etag key c
  rw [hstore]
  exact Cache.add_answers (hanswer h)

/-- Storing takes no link away. -/
theorem leads_store {k i : String} (hleads : c.store.Leads k i) (etag : WeakEtag) (key : String) :
    (store etag key c).2.store.Leads k i := by
  rw [(store_eq_add etag key c).1]
  exact Cache.leads_add hleads key etag

/-- Where a row was cached, it has an etag, and both keys of the etag lead to it. -/
theorem enrich_answers {row : Json.Members} (h : (enrich catalog now e row c).1 = true) :
    ∃ etag, etagOf catalog now e row = .ok etag ∧
      (enrich catalog now e row c).2.store.Leads etag.identity etag.identity ∧
      (enrich catalog now e row c).2.store.Leads etag.version etag.identity ∧
      (enrich catalog now e row c).2.store.Stores etag.identity etag := by
  rcases hetag : etagOf catalog now e row with reason | etag
  · have hnot : (enrich catalog now e row c).1 = false := by
      unfold enrich
      rw [hetag]
      by_cases hlogs : reason = .unknownTable ∧ catalog.logsMisses = true
      · simp only [if_pos hlogs]
        rfl
      · simp only [if_neg hlogs]
        rfl
    rw [hnot] at h
    cases h
  · unfold enrich at h ⊢
    rw [hetag] at h ⊢
    -- both keys were written, the version last
    have hboth : ((store etag etag.identity c).1 &&
        (store etag etag.versionKey (store etag etag.identity c).2).1) = true := h
    obtain ⟨hfirst, hsecond⟩ := Bool.and_eq_true _ _ |>.mp hboth
    have hkept := leads_store (store_answers hfirst).1 etag etag.versionKey
    exact ⟨etag, rfl, hkept, store_answers hsecond⟩

/-- Applying a change ends with caching the row, if it can be read. -/
theorem apply_eq_conclude (catalog : Catalog) (now : String) (e : Event) (c : Cache) :
    ∃ removed before, apply catalog now e c =
      (Programs.conclude catalog now e (Json.parseMap e.row).toOption removed).run before := by
  rw [← Programs.run_apply]
  unfold Programs.apply Programs.rowOf
  rcases Json.parseMap e.row with cause | row <;> rcases e.action.endsVersion with - | -
  · exact ⟨_, _, rfl⟩
  · exact ⟨_, _, congrFun (Program.run_bind (Programs.invalidate e) _) _⟩
  · exact ⟨_, _, rfl⟩
  · exact ⟨_, _, congrFun (Program.run_bind (Programs.invalidate e) _) _⟩

/-- Where a change was added, it produced an etag, and both keys of the etag lead to it. -/
theorem apply_links (h : (apply catalog now e c).1.added = true) :
    ∃ etag, e.Produces catalog now etag ∧
      (apply catalog now e c).2.store.Leads etag.identity etag.identity ∧
      (apply catalog now e c).2.store.Leads etag.version etag.identity ∧
      (apply catalog now e c).2.store.Stores etag.identity etag := by
  obtain ⟨removed, before, hrun⟩ := apply_eq_conclude catalog now e c
  rw [hrun, Programs.run_conclude] at h ⊢
  rcases hbegins : e.action.beginsVersion with - | -
  · rw [hbegins] at h
    exact absurd (show false = true from h) (by decide)
  · rcases hrow : Json.parseMap e.row with cause | row
    · rw [hbegins, hrow] at h
      exact absurd (show false = true from h) (by decide)
    · rw [hbegins, hrow] at h
      have henriched : (enrich catalog now e row before).1 = true := h
      obtain ⟨etag, hetag, hlinks⟩ := enrich_answers henriched
      refine ⟨etag, ?_, hlinks⟩
      have hproduced : e.produced? catalog now = some etag := by
        simp [Event.produced?, hbegins, hrow, hetag, Except.toOption]
      exact Event.produced?_eq_some_iff.mp hproduced

/-- Where a change was added, it produced an etag, and the version of the etag leads to it. -/
theorem apply_answers (h : (apply catalog now e c).1.added = true) :
    ∃ etag, e.Produces catalog now etag ∧
      (apply catalog now e c).2.store.Leads etag.version etag.identity ∧
      (apply catalog now e c).2.store.Stores etag.identity etag := by
  obtain ⟨etag, hproduces, -, hlinks⟩ := apply_links h
  exact ⟨etag, hproduces, hlinks⟩

theorem working_apply (h : c.store.Working) : (apply catalog now e c).2.store.Working := by
  rw [← Programs.run_apply]
  exact Cache.Store.keptByCommands_working.run _ c h

/-! ### Nothing but the etag -/

/-- The change produces the etag, and this is one of its keys. -/
def Event.Adds (catalog : Catalog) (now : String) (e : Event) (key : String) (etag : WeakEtag) :
    Prop :=
  e.Produces catalog now etag ∧ (key = etag.identity ∨ key = etag.versionKey)

namespace Programs

variable {allowed : String → WeakEtag → Prop}

theorem addsOnly_log (source : Log.Source) (level : Log.Level) (message : String)
    (fields : List (String × Json.Value)) : AddsOnly allowed (log source level message fields) :=
  .report (.done ())

theorem addsOnly_invalidate (e : Event) : AddsOnly allowed (invalidate e) := by
  unfold invalidate
  rcases e.oldVersion with - | version
  · exact (addsOnly_log _ _ _ _).bind fun _ => .done _
  · refine .remove fun removed => ?_
    rcases removed with cause | removed
    · exact (addsOnly_log _ _ _ _).bind fun _ => .done _
    · exact .done _

theorem addsOnly_store {etag : WeakEtag} {key : String} (h : allowed key etag) :
    AddsOnly allowed (store etag key) := by
  refine .add h fun added => ?_
  rcases added with cause | stored
  · exact (addsOnly_log _ _ _ _).bind fun _ => .done _
  · exact .done _

theorem addsOnly_enrich {row : Json.Members}
    (h : ∀ etag, etagOf catalog now e row = .ok etag →
      allowed etag.identity etag ∧ allowed etag.versionKey etag) :
    AddsOnly allowed (enrich catalog now e row) := by
  unfold enrich
  rcases hetag : etagOf catalog now e row with reason | etag
  · have hwarn : AddsOnly allowed (do
        warnOf (reason.table e) reason.message reason.fields
        return false) :=
      (addsOnly_log _ _ _ _).bind fun _ => .done _
    show AddsOnly allowed (if _ then _ else _)
    split
    · exact (addsOnly_log _ _ _ _).bind fun _ => hwarn
    · exact hwarn
  · obtain ⟨hidentity, hversion⟩ := h etag hetag
    exact (addsOnly_store hidentity).bind fun _ => (addsOnly_store hversion).bind fun _ => .done _

theorem addsOnly_conclude {row : Option Json.Members}
    (hrow : ∀ members, row = some members → Json.parseMap e.row = .ok members) (removed : Bool) :
    AddsOnly (e.Adds catalog now) (conclude catalog now e row removed) := by
  unfold conclude
  rcases hbegins : e.action.beginsVersion with - | -
  · exact .report (.done _)
  · rcases row with - | members
    · exact .report (.done _)
    · refine (addsOnly_enrich fun etag hetag => ?_).bind fun added => .report (.done _)
      have hproduces : e.Produces catalog now etag := by
        rw [← Event.produced?_eq_some_iff]
        simp [Event.produced?, hbegins, hrow members rfl, hetag, Except.toOption]
      exact ⟨⟨hproduces, Or.inl rfl⟩, hproduces, Or.inr rfl⟩

/-- A change adds the etag that it produces, under its two keys. -/
theorem addsOnly_apply (catalog : Catalog) (now : String) (e : Event) :
    AddsOnly (e.Adds catalog now) (apply catalog now e) := by
  have hrest : ∀ row : Option Json.Members,
      (∀ members, row = some members → Json.parseMap e.row = .ok members) →
      AddsOnly (e.Adds catalog now) (do
        let removed ← if e.action.endsVersion then invalidate e else pure false
        conclude catalog now e row removed) := by
    intro row hrow
    split
    · exact (addsOnly_invalidate e).bind (addsOnly_conclude hrow)
    · exact addsOnly_conclude hrow false
  unfold apply rowOf
  refine AddsOnly.bind (.report (.done ())) fun _ => (addsOnly_log _ _ _ _).bind fun _ => ?_
  -- the row is read first, and a row that cannot be read ends in a warning
  rcases hparse : Json.parseMap e.row with cause | members
  · exact (addsOnly_log _ _ _ _).bind fun _ => hrest none nofun
  · exact hrest (some members) fun _ hsome => Option.some.inj hsome ▸ hparse

end Programs

/-- A caller adds etags under their own keys. -/
theorem Call.addsOnly {call : Call} (hcolon : call.ColonFree) :
    AddsOnly (fun key etag => key = etag.identity ∨ FreshTag.ColonFree key) call.program := by
  cases call with
  | remember etag =>
    refine ((Program.addsOnly_remembering etag).mono ?_).bind fun _ => .done _
    rintro key e ⟨rfl, rfl | rfl⟩
    exacts [Or.inl rfl, Or.inr hcolon]
  | apply catalog now e =>
    refine ((Programs.addsOnly_apply catalog now e).mono ?_).bind fun _ => .done _
    rintro key etag ⟨hproduces, rfl | rfl⟩
    exacts [Or.inl rfl, Or.inr (hcolon.produced hproduces)]

end FreshTag.Change
