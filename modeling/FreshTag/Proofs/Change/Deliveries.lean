/-
FreshTag/Proofs/Change/Deliveries.lean

Runs of a processor over payloads.  Which changes a run of payloads completes
does not depend on the cache: it is the log of the run (`completedLog`), and it
is computed from the payloads and the pages that are pending.  Over a cache
inside the process a payload that completes a change applies it
(`handle_of_completes`), and any other payload leaves the links alone
(`store_handle_of_not_completes`), also one that is refused.

At the end there is a small table of plants, of which the samples of later
modules speak.
-/
import FreshTag.Proofs.Change.Application
import FreshTag.Proofs.Change.Payloads
import Mathlib

namespace FreshTag.Change

open Cache (LinkStore)

/-- A payload and the date at which it is handled. -/
structure Delivery where
  now : String
  payload : String

/-- A completed change and the date at which it is applied. -/
structure Completed where
  now : String
  event : Event

/-- The change that a payload completes, and what is pending afterwards. -/
def completes (pending : Pending) (payload : String) : Option Event × Pending :=
  match readPayload payload with
  | .error _ => (none, pending)
  | .ok (n, p) => pending.push n p

/-- What is pending after some payloads. -/
def pendingAfter (pending : Pending) (deliveries : List Delivery) : Pending :=
  deliveries.foldl (fun pending d => (completes pending d.payload).2) pending

/-- The changes that some payloads complete. -/
def completedLog (pending : Pending) : List Delivery → List Completed
  | [] => []
  | d :: rest =>
    ((completes pending d.payload).1.map (Completed.mk d.now)).toList ++
      completedLog (completes pending d.payload).2 rest

theorem completes_of_parse {payload : String} {n : Notification} {p : Page}
    (h : Notification.parse payload = .ok n) (hp : Page.parse n.rawData = .ok p)
    (pending : Pending) : completes pending payload = pending.push n p := by
  simp [completes, readPayload_eq_ok_iff.mpr ⟨h, hp⟩]

theorem pendingAfter_append (pending : Pending) (ds : List Delivery) (d : Delivery) :
    pendingAfter pending (ds ++ [d]) = (completes (pendingAfter pending ds) d.payload).2 := by
  simp [pendingAfter]

theorem completedLog_append (pending : Pending) (ds es : List Delivery) :
    completedLog pending (ds ++ es) =
      completedLog pending ds ++ completedLog (pendingAfter pending ds) es := by
  -- on the first payloads, after each of which something else may be pending
  induction ds generalizing pending with
  | nil => rfl
  | cons d ds ih => simp [completedLog, ih, pendingAfter]

namespace Processor

variable (catalog : Catalog)

/-- The processor of a listener that begins, over an empty cache inside the process. -/
def fresh (reports : Telemetry) : Processor where
  cache := { store := .bounded .empty, telemetry := reports }

/-- The processor after some payloads. -/
def afterAll (deliveries : List Delivery) (s : Processor) : Processor :=
  deliveries.foldl (fun s d => (handle catalog d.now d.payload s).2) s

theorem afterAll_append (ds : List Delivery) (d : Delivery) (s : Processor) :
    afterAll catalog (ds ++ [d]) s = (handle catalog d.now d.payload (afterAll catalog ds s)).2 := by
  simp [afterAll]

theorem pending_handle (now payload : String) (s : Processor) :
    (handle catalog now payload s).2.pending = (completes s.pending payload).2 := by
  unfold handle completes
  rcases readPayload payload with cause | ⟨n, p⟩
  · rfl
  · rcases h : s.pending.push n p with ⟨event, pending⟩
    rcases event with - | e
    · simp only [h]
    · simp only [h]
      rfl

theorem pending_afterAll (ds : List Delivery) (s : Processor) :
    (afterAll catalog ds s).pending = pendingAfter s.pending ds := by
  induction ds using List.reverseRecOn with
  | nil => rfl
  | append_singleton ds d ih =>
    rw [afterAll_append, pending_handle, ih, pendingAfter_append]

variable {catalog} {now payload : String} {s : Processor}

/-- A payload that completes nothing leaves the cache as it is. -/
theorem store_handle_of_not_completes (h : (completes s.pending payload).1 = none) :
    (handle catalog now payload s).2.cache.store = s.cache.store := by
  unfold completes at h
  unfold handle
  rcases hread : readPayload payload with cause | ⟨n, p⟩
  · rfl
  · rw [hread] at h
    rcases hpush : s.pending.push n p with ⟨event, pending⟩
    simp only [hpush] at h
    subst h
    simp [hpush]

/-- A payload that completes a change applies it. -/
theorem handle_of_completes {e : Event} {links : LinkStore}
    (h : (completes s.pending payload).1 = some e) (hs : s.cache.store = .bounded links) :
    (handle catalog now payload s).1 = .ok (some (e.outcome catalog now links)) ∧
      (handle catalog now payload s).2.cache.store = .bounded (e.applied catalog now links) := by
  unfold completes at h
  unfold handle
  rcases hread : readPayload payload with cause | ⟨n, p⟩
  · rw [hread] at h
    cases h
  · rw [hread] at h
    rcases hpush : s.pending.push n p with ⟨event, pending⟩
    simp only [hpush] at h
    subst h
    have htakes := takes_apply catalog now e links
    -- the change is applied after the page was reported, which the links do not notice
    let c : Cache := { s.cache with telemetry := reportPage n.md5 p pending s.cache.telemetry }
    have hlinks : c.store = .bounded links := hs
    simp only [hpush]
    refine ⟨?_, htakes.store_eq hlinks⟩
    show Except.ok (some (apply catalog now e c).1) = _
    rw [htakes.answer_eq hlinks]

end Processor

/-! ### A table of plants -/

/-- A catalog of one table with texts as ids. -/
def plants : Catalog :=
  .fixed [(Catalog.Table.ofName "public" "plants").withIdColumn "id" .text]

/-- The change of a plant. -/
def plantChange (action : Action) (oldVersion newVersion : Option String) (plant : String) :
    Event where
  id := "public.plants"
  schema := "public"
  table := "plants"
  action
  oldVersion
  newVersion
  md5 := plant
  row := "\x7b\"id\":\"" ++ plant ++ "\"\x7d"

/-- The payload that announces the change of a plant on one page. -/
def plantPayload (e : Event) : String :=
  (e.notification ⟨1, 1, e.row⟩).text

/-- The etag of a version of a plant. -/
def plantEtag (plant version : String) : WeakEtag where
  collection := "public.plants"
  featureId := plant
  version
  lastModified := ""
  data := some [("id", .string plant)]

theorem completes_plantPayload {e : Event} (pending : Pending)
    (h : Notification.parse (plantPayload e) = .ok (e.notification ⟨1, 1, e.row⟩)) :
    completes pending (plantPayload e) = (some e, pending) := by
  have hcount : 1 < Number.twoTo 32 := by decide
  rw [completes_of_parse h (Page.parse_text ⟨Nat.le_refl 1, Nat.le_refl 1, hcount⟩)]
  rfl

/-- An oak that is new at version 10. -/
def newOak : Event :=
  plantChange .insert none (some "10") "oak"

theorem parse_newOak :
    Notification.parse (plantPayload newOak) = .ok (newOak.notification ⟨1, 1, newOak.row⟩) := by
  cbv

theorem produces_newOak : newOak.Produces plants "" (plantEtag "oak" "10") :=
  Event.produced?_eq_some_iff.mp (by cbv)

end FreshTag.Change
