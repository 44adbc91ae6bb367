/-
FreshTag/Proofs/Change/Fills.lean

Remembering a feature on a server that may refuse any command.  When a feature
was remembered, its version leads to its etag if the etag was stored just now;
if it was found, the version leads to it exactly if it did before
(`remembered_is_linked_iff`).  Whatever failed earlier, a version that leads to
an etag is found once the server works again, and removing it takes the etag
out.

That an etag is found does not say that its version leads to it: the adding of
the second key may have failed, and then the etag stays without it
(`oak_stays_unlinked`).
-/
import FreshTag.Proofs.Cache.Typed
import FreshTag.Proofs.Change.Calls
import FreshTag.Proofs.Change.Deliveries

namespace FreshTag

open Cache (KeyPrefix Op Program Store Typed)

namespace Cache

variable {p : KeyPrefix} {server : Redis.Server} {c : Cache}

/-- Looking for an etag leaves the links of a shared cache as they are. -/
theorem leads_find (hc : c.store = .shared p server) (key k i : String) :
    ((Cache.find key).run c).2.store.Leads k i ↔ c.store.Leads k i := by
  have hspace : server.space = ((SharedStore.getText p key).run server).2.space :=
    (keeps_getText p key server rfl).1
  rw [find_on_shared hc key, hc]
  show (∃ ms, Dict.get? _ _ = _ ∧ _) ↔ ∃ ms, Dict.get? _ _ = _ ∧ _
  rw [← hspace]

/-- A feature that was remembered is linked if it was stored, or if it was linked before. -/
theorem leads_remember (hc : c.store = .shared p server) {etag : WeakEtag} {b : Bool}
    (h : ((Cache.remember etag).run c).1 = .ok b) :
    ((Cache.remember etag).run c).2.store.Leads etag.version etag.identity ↔
      b = true ∨ c.store.Leads etag.version etag.identity := by
  unfold Cache.remember at h ⊢
  obtain ⟨found, -, hrest, hafter⟩ := bind_answers h
  rw [hafter]
  rcases found with - | found
  · -- not found, so both keys were written, and a shared cache says so
    obtain ⟨stored, hstored, hrest, hafter⟩ := bind_answers hrest
    obtain ⟨linked, hlinked, hanswer, hafter'⟩ := bind_answers hrest
    obtain ⟨-, rfl⟩ := (add_on_shared (find_on_shared hc _) _ _).2 stored hstored
    have hshared := (add_on_shared (find_on_shared hc etag.identity) etag.identity etag).1
    obtain ⟨-, rfl⟩ := (add_on_shared hshared _ _).2 linked hlinked
    obtain rfl : true = b := Except.ok.inj hanswer
    refine iff_of_true ?_ (Or.inl rfl)
    exact (hafter.trans hafter') ▸ (add_answers hlinked).1
  · obtain rfl : false = b := Except.ok.inj hrest
    exact (leads_find hc etag.identity _ _).trans (by simp)

end Cache

namespace Change

/-! ### Callers one after another -/

/-- The cache after a caller was served. -/
def Call.perform (c : Cache) : Call → Cache
  | .remember etag => ((Cache.remember etag).run c).2
  | .apply catalog now e => (Change.apply catalog now e c).2

/-- The cache after all callers were served, one after another. -/
def performCalls (calls : List Call) (c : Cache) : Cache :=
  calls.foldl Call.perform c

theorem Call.perform_eq_run (call : Call) (c : Cache) :
    call.perform c = (call.program.run c).2 := by
  cases call with
  | remember etag =>
    rw [Call.run_remember]
    rfl
  | apply catalog now e =>
    rw [Call.run_apply]
    rfl

/-- What the commands of each caller keep, all of them keep. -/
theorem performCalls_run {P : Store → Prop} {calls : List Call}
    (h : ∀ call ∈ calls, ∀ c : Cache, P c.store → P (call.program.run c).2.store)
    {c : Cache} (hc : P c.store) : P (performCalls calls c).store := by
  unfold performCalls
  induction calls generalizing c with
  | nil => exact hc
  | cons call calls ih =>
    obtain ⟨hcall, hcalls⟩ := List.forall_mem_cons.mp h
    refine ih hcalls ?_
    rw [Call.perform_eq_run]
    exact hcall c hc

/-- What every command keeps, callers keep. -/
theorem performCalls_keeps {P : Store → Prop} (h : Program.KeptByCommands P) (calls : List Call)
    {c : Cache} (hc : P c.store) : P (performCalls calls c).store :=
  performCalls_run (fun call _ c => h.run call.program c) hc

/-- After any calls on a server that may refuse any command, the version of an etag that was
remembered leads to it if the etag was stored just now, or if the version led to it before.  A
version that leads to an etag is found as soon as the server refuses nothing any more, and then
removing it takes the etag out. -/
theorem remembered_is_linked_iff (p : KeyPrefix) (received : Nat)
    (refuses : Nat → Redis.Command → Bool) (reports : Telemetry) (calls : List Call)
    {etag : WeakEtag} {stored : Bool} {before : Cache}
    (hbefore : before = performCalls calls
      { store := .shared p { received := received, refuses := refuses }, telemetry := reports })
    (hanswer : ((Cache.remember etag).run before).1 = .ok stored) :
    ∃ after, after = ((Cache.remember etag).run before).2 ∧
      (after.store.Leads etag.version etag.identity ↔
        stored = true ∨ before.store.Leads etag.version etag.identity) ∧
      (after.store.Leads etag.version etag.identity → ∀ c : Cache, c.store = after.store.mended →
        (∀ strong d, StrongEtag.decode strong = .ok d → d.version = etag.version →
          ((Cache.contains strong).run c).1 = .ok true) ∧
        ((Cache.remove etag.version).run c).1 = .ok true ∧
        ∀ e, ¬ ((Cache.remove etag.version).run c).2.store.Stores etag.identity e) := by
  have hkept := Store.keptByCommands_on (Cache.stable_typed p) refuses
  have hon : before.store.On p (Typed p) refuses := by
    rw [hbefore]
    exact performCalls_keeps hkept calls ⟨_, rfl, Cache.typed_empty p, rfl⟩
  have hafter : ((Cache.remember etag).run before).2.store.On p (Typed p) refuses := by
    rw [← Program.run_remembering]
    exact hkept.run _ before hon
  obtain ⟨server, hserver, -⟩ := id hon
  refine ⟨_, rfl, Cache.leads_remember hserver hanswer, fun hleads c hc => ?_⟩
  obtain ⟨hholds, hremove, hgone⟩ := hafter.reaches hc hleads
  refine ⟨fun strong d hdecode hversion => ?_, hremove, hgone⟩
  rw [Cache.contains_eq_holds hdecode, hversion, hholds]

/-! ### An oak whose version is not linked -/

/-- The oak at version 10. -/
def oak : WeakEtag :=
  plantEtag "oak" "10"

/-- An empty cache on a server that refuses the command in one place. -/
def refusing (place : Nat) : Cache :=
  { store := .shared ⟨"fresh"⟩ { refuses := fun n _ => n == place } }

/-- When looking for the oak was refused, it can be remembered the next time, and then its version
leads to it. -/
theorem oak_is_linked_next_time :
    ∃ before after, before = performCalls [.remember oak] (refusing 0) ∧
      ((Cache.remember oak).run before).1 = .ok true ∧
      after = ((Cache.remember oak).run before).2 ∧ after.store.Leads "10" oak.identity := by
  have hanswer : ((Cache.remember oak).run (performCalls [.remember oak] (refusing 0))).1 =
      .ok true := by cbv
  generalize hbefore : performCalls [.remember oak] (refusing 0) = before at hanswer
  obtain ⟨after, hafter, hlinked, -⟩ := remembered_is_linked_iff ⟨"fresh"⟩ 0 (fun n _ => n == 0) {}
    [.remember oak] hbefore.symm hanswer
  exact ⟨before, after, rfl, hanswer, hafter, hlinked.mpr (Or.inl rfl)⟩

/-- When the adding of its version was refused, the oak is found the next time, but its version
does not lead to it, and its strong etag is not in the cache. -/
theorem oak_stays_unlinked :
    ∃ before after, before = performCalls [.remember oak] (refusing 9) ∧
      ((Cache.remember oak).run before).1 = .ok false ∧
      after = ((Cache.remember oak).run before).2 ∧ ¬ after.store.Leads "10" oak.identity ∧
      ((Cache.contains (oak.strong "25832" "JSON").token).run after).1 = .ok false := by
  have hanswer : ((Cache.remember oak).run (performCalls [.remember oak] (refusing 9))).1 =
      .ok false := by cbv
  have hholds : ((Cache.holds "10").run
      ((Cache.remember oak).run (performCalls [.remember oak] (refusing 9))).2).1 =
      .ok false := by cbv
  have hdecode : StrongEtag.decode (oak.strong "25832" "JSON").token =
      .ok (oak.strong "25832" "JSON") := by cbv
  generalize hbefore : performCalls [.remember oak] (refusing 9) = before at hanswer hholds
  generalize hafter : ((Cache.remember oak).run before).2 = after at hholds
  refine ⟨before, after, rfl, hanswer, hafter.symm, fun hleads => ?_, ?_⟩
  · exact absurd (Cache.found_of_leads hleads hholds) (by decide)
  · exact (Cache.contains_eq_holds hdecode after).trans hholds

end Change

end FreshTag
