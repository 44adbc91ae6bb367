/-
FreshTag/Proofs/Change/History.lean

The rows of a database, and a processor that hears of their changes.  Rows come
and go under labels that the processor never sees; what it gets are the
notifications of the trigger, one change after the other, each in as many pages
as its row needs.  A change counts from its last page on.  Between the messages
etags of current row versions may be remembered; `served` says which.

Any number of rows may share a version, also rows of different tables, and an
update may keep the version, as it does when one transaction writes a row
twice.  What carries a run is that every etag in the cache is of a row that is
there in that very version (`Current`): when a row leaves a version, the
version ends, and with it every etag of the version goes.
-/
import FreshTag.Database.Statements
import FreshTag.Proofs.Change.Deliveries

namespace FreshTag.Change

open Cache (LinkStore Takes)

/-! ### Rows and their changes -/

/-- How the trigger names a table. -/
structure TableName where
  /-- the identifier, quoted where necessary -/
  id : String
  schema : String
  name : String

/-- What stands in a row from one change of it to the next. -/
structure RowVersion where
  table : TableName
  version : String
  /-- the row as JSON text -/
  json : String
  colonFree : ColonFree version
  /-- a text in a database has less than 2³⁰ bytes -/
  short : json.length < Number.twoTo 30

/-- The rows that exist. -/
abbrev Rows (ρ : Type) := ρ → Option RowVersion

/-- A change of one row. -/
inductive RowChange (ρ : Type) where
  | insert (r : ρ) (new : RowVersion)
  | update (r : ρ) (old new : RowVersion)
  | delete (r : ρ) (old : RowVersion)

namespace RowChange

variable {ρ : Type}

/-- The row that changes. -/
def target : RowChange ρ → ρ
  | .insert r _ => r
  | .update r _ _ => r
  | .delete r _ => r

/-- The change can happen to the rows. -/
def Possible (rows : Rows ρ) : RowChange ρ → Prop
  | .insert r _ => rows r = none
  | .update r old new => rows r = some old ∧ new.table = old.table
  | .delete r old => rows r = some old

/-- The rows after the change. -/
def after [DecidableEq ρ] (rows : Rows ρ) : RowChange ρ → Rows ρ
  | .insert r new => Function.update rows r (some new)
  | .update r _ new => Function.update rows r (some new)
  | .delete r _ => Function.update rows r none

/-- What the trigger announces of the change. -/
def event (md5 : String) : RowChange ρ → Event
  | .insert _ new =>
    { id := new.table.id, schema := new.table.schema, table := new.table.name, action := .insert,
      oldVersion := none, newVersion := some new.version, md5, row := new.json }
  | .update _ old new =>
    { id := new.table.id, schema := new.table.schema, table := new.table.name, action := .update,
      oldVersion := some old.version, newVersion := some new.version, md5, row := new.json }
  | .delete _ old =>
    { id := old.table.id, schema := old.table.schema, table := old.table.name, action := .delete,
      oldVersion := some old.version, newVersion := none, md5, row := old.json }

end RowChange

/-- The etag describes the version of the row. -/
structure Describes (catalog : Catalog) (row : RowVersion) (etag : WeakEtag) : Prop where
  collection : etag.collection = row.table.id
  version : etag.version = row.version
  content : ∃ members table, Json.parseMap row.json = .ok members ∧ etag.data = some members ∧
    catalog.lookup row.table.id = .ok (some table) ∧ featureId table members = .ok etag.featureId

section

variable {ρ : Type} {rows : Rows ρ} {c : RowChange ρ} {md5 : String} {catalog : Catalog}

theorem event_colonFree (c : RowChange ρ) (md5 : String) : (c.event md5).VersionsColonFree := by
  cases c with
  | insert r new => exact ⟨fun v h => (by cases h), fun v h => (by cases h; exact new.colonFree)⟩
  | update r old new =>
    exact ⟨fun v h => (by cases h; exact old.colonFree),
      fun v h => (by cases h; exact new.colonFree)⟩
  | delete r old => exact ⟨fun v h => (by cases h; exact old.colonFree), fun v h => (by cases h)⟩

theorem event_short (c : RowChange ρ) (md5 : String) :
    (c.event md5).row.length < Number.twoTo 32 := by
  have hle : Number.twoTo 30 ≤ Number.twoTo 32 := by decide
  cases c with
  | insert r new => exact Nat.lt_of_lt_of_le new.short hle
  | update r old new => exact Nat.lt_of_lt_of_le new.short hle
  | delete r old => exact Nat.lt_of_lt_of_le old.short hle

/-- Where the row was there, the change ends its version. -/
theorem ends_of_target (hc : c.Possible rows) {row : RowVersion} (hrow : rows c.target = some row) :
    (c.event md5).Ends row.version := by
  cases c with
  | insert r new =>
    have hnone : rows r = none := hc
    rw [RowChange.target, hnone] at hrow
    cases hrow
  | update r old new =>
    have hold : rows r = some old := hc.1
    rw [RowChange.target, hold] at hrow
    cases hrow
    exact ⟨Or.inl rfl, rfl⟩
  | delete r old =>
    have hold : rows r = some old := hc
    rw [RowChange.target, hold] at hrow
    cases hrow
    exact ⟨Or.inr rfl, rfl⟩

variable [DecidableEq ρ]

theorem after_of_ne {r : ρ} (hr : r ≠ c.target) : c.after rows r = rows r := by
  cases c <;> exact Function.update_of_ne hr _ _

/-- A row stays as it is while its version does not end. -/
theorem after_of_not_ends (hc : c.Possible rows) {r : ρ} {row : RowVersion}
    (hrow : rows r = some row) (hends : ¬ (c.event md5).Ends row.version) :
    c.after rows r = some row := by
  by_cases hr : r = c.target
  · subst hr
    exact absurd (ends_of_target hc hrow) hends
  · rw [after_of_ne hr, hrow]

/-- The etag that a change produces describes the row afterwards. -/
theorem describes_of_produces {now : String} {etag : WeakEtag}
    (h : (c.event md5).Produces catalog now etag) :
    ∃ row, c.after rows c.target = some row ∧ Describes catalog row etag := by
  cases c with
  | insert r new =>
    obtain ⟨-, hparse, hversion, hlookup, hid⟩ := h
    cases hversion
    exact ⟨new, Function.update_self .., rfl, rfl, _, _, hparse, rfl, hlookup, hid⟩
  | update r old new =>
    obtain ⟨-, hparse, hversion, hlookup, hid⟩ := h
    cases hversion
    exact ⟨new, Function.update_self .., rfl, rfl, _, _, hparse, rfl, hlookup, hid⟩
  | delete r old => cases h.newVersion

end

/-! ### Runs -/

section

variable {ρ : Type}

/-- A database, a processor, and what is still to come of a change that is being announced: the
rows after it, and the notifications of its pages. -/
structure World (ρ : Type) where
  rows : Rows ρ
  processor : Processor
  underway : Option (Rows ρ × List Notification) := none

/-- A listener begins, on whatever rows there are, with an empty cache. -/
def World.fresh (rows : Rows ρ) (reports : Telemetry) : World ρ where
  rows
  processor := Processor.fresh reports

variable [DecidableEq ρ]

/-- What happens next: a change begins to be announced, a page of it arrives, the last page of it
arrives, or the etag of a row is remembered. -/
inductive Step (catalog : Catalog) (served : RowVersion → WeakEtag → Prop) :
    World ρ → World ρ → Prop
  | announce {w : World ρ} (c : RowChange ρ) (md5 : String) (chunk : Nat) :
    w.underway = none → c.Possible w.rows →
    Step catalog served w { w with
      underway := some (c.after w.rows,
        (c.event md5).notifications (Database.clampChunk chunk)) }
  | page {w : World ρ} {after : Rows ρ} {n n' : Notification} {rest : List Notification}
    {payload : String} (now : String) :
    w.underway = some (after, n :: n' :: rest) → Notification.parse payload = .ok n →
    Step catalog served w { w with
      processor := (w.processor.handle catalog now payload).2
      underway := some (after, n' :: rest) }
  | last {w : World ρ} {after : Rows ρ} {n : Notification} {payload : String} (now : String) :
    w.underway = some (after, [n]) → Notification.parse payload = .ok n →
    Step catalog served w {
      rows := after
      processor := (w.processor.handle catalog now payload).2 }
  | remember {w : World ρ} {r : ρ} {row : RowVersion} {etag : WeakEtag} :
    w.rows r = some row → etag.version = row.version → served row etag →
    Step catalog served w { w with
      processor := { w.processor with
        cache := ((Cache.remember etag).run w.processor.cache).2 } }

/-- One step after the other. -/
abbrev Run (catalog : Catalog) (served : RowVersion → WeakEtag → Prop) :
    World ρ → World ρ → Prop :=
  Relation.ReflTransGen (Step catalog served)

/-- A change of a row that fits on one page happens in two steps. -/
theorem run_change {catalog : Catalog} {served : RowVersion → WeakEtag → Prop} {w : World ρ}
    (hnone : w.underway = none) {c : RowChange ρ} (hc : c.Possible w.rows) {md5 payload : String}
    (hlength : (c.event md5).row.length ≤ Database.greatestChunk)
    (hparse : Notification.parse payload =
      .ok ((c.event md5).notification ⟨1, 1, (c.event md5).row⟩)) (now : String) :
    Run catalog served w {
      rows := c.after w.rows
      processor := (w.processor.handle catalog now payload).2 } := by
  have hchunk : Database.clampChunk Database.greatestChunk = Database.greatestChunk := by decide
  have hannounce : Step catalog served w _ :=
    .announce c md5 Database.greatestChunk hnone hc
  rw [hchunk, notifications_of_length_le (by decide) hlength] at hannounce
  exact (Relation.ReflTransGen.single hannounce).tail (.last now rfl hparse)

/-! ### What holds at every moment -/

/-- Every etag in the store is of a version that a row has, and describes it or was remembered
for it. -/
structure Current (catalog : Catalog) (served : RowVersion → WeakEtag → Prop) (rows : Rows ρ)
    (s : LinkStore) : Prop extends s.Paired where
  row_of_stored : ∀ {i : String} {etag : WeakEtag}, s.stored? i = some etag →
    ∃ r row, rows r = some row ∧ etag.version = row.version ∧
      (Describes catalog row etag ∨ served row etag)

/-- The pages that are pending and those that are still to come make the change that is being
announced. -/
def Awaits (w : World ρ) : Prop :=
  match w.underway with
  | none => w.processor.pending = ∅
  | some (after, rest) => ∃ (c : RowChange ρ) (md5 : String), c.Possible w.rows ∧
      after = c.after w.rows ∧ Joins w.processor.pending rest (c.event md5) ∅

/-- The cache of the processor is current, and so is what it awaits. -/
def InStep (catalog : Catalog) (served : RowVersion → WeakEtag → Prop) (w : World ρ) : Prop :=
  Awaits w ∧ ∃ s, w.processor.cache.store = .bounded s ∧ Current catalog served w.rows s

variable {catalog : Catalog} {served : RowVersion → WeakEtag → Prop}

theorem inStep_fresh (rows : Rows ρ) (reports : Telemetry) :
    InStep catalog served (World.fresh rows reports) := by
  refine ⟨rfl, .empty, rfl, LinkStore.paired_empty, ?_⟩
  intro i etag h
  simp at h

/-- A change keeps the store current. -/
theorem Current.applied {rows : Rows ρ} {s : LinkStore} (h : Current catalog served rows s)
    {c : RowChange ρ} (hc : c.Possible rows) (md5 now : String) :
    Current catalog served (c.after rows) ((c.event md5).applied catalog now s) where
  toPaired := applied_paired (event_colonFree c md5) h.toPaired
  row_of_stored := by
    intro i etag hst
    -- the etag is the new one, or it is an old one whose version did not end
    rcases (stored?_applied (event_colonFree c md5) h.toPaired).mp hst with
      ⟨hproduces, -⟩ | ⟨hold, hends, -⟩
    · obtain ⟨row, hrow, hdescribes⟩ := describes_of_produces hproduces
      exact ⟨c.target, row, hrow, hdescribes.version, Or.inl hdescribes⟩
    · obtain ⟨r, row, hrow, hversion, hshown⟩ := h.row_of_stored hold
      exact ⟨r, row, after_of_not_ends hc hrow (hversion ▸ hends), hversion, hshown⟩

omit [DecidableEq ρ] in
/-- Remembering the etag of a row keeps the store current. -/
theorem Current.remembered {rows : Rows ρ} {s : LinkStore} (h : Current catalog served rows s)
    {r : ρ} {row : RowVersion} {etag : WeakEtag} (hrow : rows r = some row)
    (hversion : etag.version = row.version) (hserved : served row etag) :
    Current catalog served rows (s.addPair etag) where
  toPaired := h.toPaired.addPair (hversion ▸ row.colonFree)
  row_of_stored := by
    intro i etag' hst
    rw [LinkStore.stored?_addPair] at hst
    split at hst
    · cases hst
      exact ⟨r, row, hrow, hversion, Or.inr hserved⟩
    · exact h.row_of_stored hst

/-- The last page of a change applies it, and leaves nothing pending. -/
theorem Awaits.last {w : World ρ} (h : Awaits w) {after : Rows ρ} {n : Notification}
    {payload : String} (hunderway : w.underway = some (after, [n]))
    (hparse : Notification.parse payload = .ok n) {s : LinkStore}
    (hs : w.processor.cache.store = .bounded s) (catalog : Catalog) (now : String) :
    ∃ (c : RowChange ρ) (md5 : String), c.Possible w.rows ∧ after = c.after w.rows ∧
      (w.processor.handle catalog now payload).2.pending = ∅ ∧
      (w.processor.handle catalog now payload).2.cache.store =
        .bounded ((c.event md5).applied catalog now s) := by
  unfold Awaits at h
  rw [hunderway] at h
  obtain ⟨c, md5, hc, hafter, hjoins⟩ := h
  cases hjoins with
  -- no page is left for later
  | more _ _ hrest => cases hrest
  | last hpage hpush =>
    have hcompletes := completes_of_parse hparse hpage w.processor.pending
    rw [hpush] at hcompletes
    refine ⟨c, md5, hc, hafter, ?_, ?_⟩
    · rw [Processor.pending_handle, hcompletes]
    · exact (Processor.handle_of_completes (by rw [hcompletes]) hs).2

/-- Every step keeps the world in step. -/
theorem Step.inStep {w w' : World ρ} (hstep : Step catalog served w w')
    (h : InStep catalog served w) : InStep catalog served w' := by
  obtain ⟨hawaits, s, hs, hcurrent⟩ := h
  cases hstep with
  | announce c md5 chunk hnone hc =>
    unfold Awaits at hawaits
    rw [hnone] at hawaits
    refine ⟨⟨c, md5, hc, rfl, ?_⟩, s, hs, hcurrent⟩
    have hpending : w.processor.pending = ∅ := hawaits
    rw [hpending]
    exact joins_notifications (Database.clampChunk_mem chunk).1 (event_short c md5)
  | page now hunderway hparse =>
    unfold Awaits at hawaits
    rw [hunderway] at hawaits
    obtain ⟨c, md5, hc, hafter, hjoins⟩ := hawaits
    cases hjoins with
    -- a page comes after this one, so this one completes nothing
    | more hpage hpush hrest =>
      have hcompletes := completes_of_parse hparse hpage w.processor.pending
      rw [hpush] at hcompletes
      refine ⟨⟨c, md5, hc, hafter, ?_⟩, s, ?_, hcurrent⟩
      · rw [Processor.pending_handle, hcompletes]
        exact hrest
      · rw [Processor.store_handle_of_not_completes (by rw [hcompletes]), hs]
  | last now hunderway hparse =>
    obtain ⟨c, md5, hc, rfl, hpending, hstore⟩ := hawaits.last hunderway hparse hs catalog now
    exact ⟨hpending, _, hstore, hcurrent.applied hc md5 now⟩
  | @remember r row etag hrow hversion hserved =>
    refine ⟨hawaits, _, (Takes.remember s etag).store_eq hs, ?_⟩
    split
    · exact hcurrent.remembered hrow hversion hserved
    · exact hcurrent

/-- Every run keeps the world in step. -/
theorem Run.inStep {w w' : World ρ} (hrun : Run catalog served w w')
    (h : InStep catalog served w) : InStep catalog served w' := by
  induction hrun with
  | refl => exact h
  | tail _ hstep ih => exact hstep.inStep ih

end

/-- A listener that begins with an empty cache holds, at every moment of every history of row
changes, only etags that describe rows that are there. -/
theorem etags_describe_rows {ρ : Type} [DecidableEq ρ] (catalog : Catalog) (rows : Rows ρ)
    (reports : Telemetry) {w : World ρ}
    (hrun : Run catalog (fun _ _ => False) (World.fresh rows reports) w) :
    ∃ s, w.processor.cache.store = .bounded s ∧
      ∀ i etag, s.stored? i = some etag →
        ∃ r row, w.rows r = some row ∧ Describes catalog row etag := by
  obtain ⟨-, s, hs, hcurrent⟩ := Run.inStep hrun (inStep_fresh rows reports)
  refine ⟨s, hs, ?_⟩
  intro i etag hst
  obtain ⟨r, row, hrow, -, hshown⟩ := hcurrent.row_of_stored hst
  exact ⟨r, row, hrow, hshown.resolve_right id⟩

/-! ### An oak -/

/-- A version of a plant. -/
def plantVersion (plant version : String) (colonFree : ColonFree version)
    (short : (plantChange .insert none none plant).row.length < Number.twoTo 30) : RowVersion where
  table := ⟨"public.plants", "public", "plants"⟩
  version
  json := (plantChange .insert none none plant).row
  colonFree
  short

theorem colonFree_ten : ColonFree "10" := by decide

theorem short_oak : (plantChange .insert none none "oak").row.length < Number.twoTo 30 := by
  decide

def oakTen : RowVersion :=
  plantVersion "oak" "10" colonFree_ten short_oak

/-- A database without rows, in which an oak is planted. -/
def planted : World Unit where
  rows := (RowChange.insert () oakTen).after fun _ => none
  processor := ((World.fresh (ρ := Unit) (fun _ => none) {}).processor.handle plants ""
    (plantPayload newOak)).2

theorem run_planted (served : RowVersion → WeakEtag → Prop) :
    Run plants served (World.fresh (fun _ => none) {}) planted :=
  run_change (w := World.fresh (fun _ => none) {}) (c := .insert () oakTen) rfl rfl (by decide)
    parse_newOak ""

/-- Whatever the cache holds then, describes the oak. -/
theorem etags_describe_oak :
    Run plants (fun _ _ => False) (World.fresh (fun _ => none) {}) planted ∧
      ∃ s, planted.processor.cache.store = .bounded s ∧
        ∀ i etag, s.stored? i = some etag →
          ∃ r row, planted.rows r = some row ∧ Describes plants row etag :=
  ⟨run_planted _, etags_describe_rows plants (fun _ => none) {} (run_planted _)⟩

end FreshTag.Change
