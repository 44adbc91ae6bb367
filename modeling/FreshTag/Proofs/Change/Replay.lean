/-
FreshTag/Proofs/Change/Replay.lean

A cache inside the process is the replay of the log of completed changes.

An etag stands after a log if a change of it produced the etag and no later
change ended the version of the etag (`Standing`).  If several changes produced
etags of one identity, the last one of them that stands is the etag of the
identity (`Latest`).  The log may be any list of changes, also one that no
database would publish; only its versions may not contain colons, because a
version with colons can be the identity of another etag.

What a store has to do with a log is preserved by every change
(`Replays.applied`), hence by every payload (`Replays.handle`) and every run of
payloads (`replays_afterAll`).
-/
import FreshTag.Proofs.Change.Deliveries

namespace FreshTag.Change

open Cache (LinkStore)

/-- Choosing a place in a list that ends with `y`: either that end, or a place before it. -/
theorem exists_split_concat {α : Type} {R : α → List α → Prop} {l : List α} {y : α} :
    (∃ before x after, l ++ [y] = before ++ x :: after ∧ R x after) ↔
      R y [] ∨ ∃ before x after, l = before ++ x :: after ∧ R x (after ++ [y]) := by
  constructor
  · rintro ⟨before, x, after, h, hr⟩
    -- `x` is the end of the list exactly if nothing comes after it
    rcases List.eq_nil_or_concat after with rfl | ⟨rest, z, rfl⟩
    · obtain ⟨-, hyx⟩ := List.append_inj' h rfl
      cases hyx
      exact Or.inl hr
    · rw [List.concat_eq_append] at h hr
      rw [← List.cons_append, ← List.append_assoc] at h
      obtain ⟨rfl, hyz⟩ := List.append_inj' h rfl
      cases hyz
      exact Or.inr ⟨before, x, rest, rfl, hr⟩
  · rintro (hr | ⟨before, x, after, rfl, hr⟩)
    · exact ⟨l, y, [], rfl, hr⟩
    · exact ⟨before, x, after ++ [y], by simp, hr⟩

section

variable (catalog : Catalog)

/-- Some change of the log produced the etag, and no later one ended its version. -/
def Standing (log : List Completed) (etag : WeakEtag) : Prop :=
  ∃ before c after, log = before ++ c :: after ∧
    c.event.Produces catalog c.now etag ∧ ∀ d ∈ after, ¬ d.event.Ends etag.version

/-- Some change of the log produced the etag, no later one ended its version, and no later one
produced an etag of its identity that stands. -/
def Latest (log : List Completed) (etag : WeakEtag) : Prop :=
  ∃ before c after, log = before ++ c :: after ∧
    c.event.Produces catalog c.now etag ∧ (∀ d ∈ after, ¬ d.event.Ends etag.version) ∧
      ∀ f, Standing catalog after f → f.identity ≠ etag.identity

/-- No version of the log contains a colon. -/
def LogColonFree (log : List Completed) : Prop :=
  ∀ c ∈ log, c.event.VersionsColonFree

variable {catalog} {log : List Completed} {c : Completed} {etag : WeakEtag}

theorem Latest.standing (h : Latest catalog log etag) : Standing catalog log etag := by
  obtain ⟨before, c, after, hlog, hproduces, hends, -⟩ := h
  exact ⟨before, c, after, hlog, hproduces, hends⟩

theorem LogColonFree.standing (h : LogColonFree log) (hst : Standing catalog log etag) :
    ColonFree etag.version := by
  obtain ⟨before, c, after, rfl, hproduces, -⟩ := hst
  exact (h c (by simp)).produced hproduces

theorem not_standing_nil : ¬ Standing catalog [] etag := by
  rintro ⟨before, c, after, h, -⟩
  simp at h

/-! ### One more change -/

theorem standing_concat_iff :
    Standing catalog (log ++ [c]) etag ↔
      c.event.Produces catalog c.now etag ∨
        (Standing catalog log etag ∧ ¬ c.event.Ends etag.version) := by
  unfold Standing
  refine exists_split_concat.trans ?_
  simp only [List.mem_append, List.mem_singleton, or_imp, forall_and, forall_eq, List.not_mem_nil,
    false_imp_iff, implies_true, and_true]
  constructor
  · rintro (h | ⟨before, x, after, hlog, hproduces, hends, hc⟩)
    exacts [Or.inl h, Or.inr ⟨⟨before, x, after, hlog, hproduces, hends⟩, hc⟩]
  · rintro (h | ⟨⟨before, x, after, hlog, hproduces, hends⟩, hc⟩)
    exacts [Or.inl h, Or.inr ⟨before, x, after, hlog, hproduces, hends, hc⟩]

/-- The etag of an identity after one more change is the one that it produces, or else the one
from before, if its version did not end. -/
theorem latest_concat_iff (hlog : LogColonFree (log ++ [c])) :
    Latest catalog (log ++ [c]) etag ↔
      c.event.Produces catalog c.now etag ∨
        (Latest catalog log etag ∧ ¬ c.event.Ends etag.version ∧
          ∀ f, c.event.Produces catalog c.now f → f.identity ≠ etag.identity) := by
  unfold Latest
  refine exists_split_concat.trans ?_
  simp only [standing_concat_iff, List.mem_append, List.mem_singleton, or_imp, forall_and,
    forall_eq, List.not_mem_nil, false_imp_iff, implies_true, not_standing_nil, and_true]
  constructor
  · rintro (h | ⟨before, x, after, rfl, hproduces, ⟨hends, hc⟩, hnew, hold⟩)
    · exact Or.inl h
    · refine Or.inr ⟨⟨before, x, after, rfl, hproduces, hends, ?_⟩, hc, hnew⟩
      intro f hf hid
      -- an etag of the same identity is of the same version, which did not end
      have hx : ColonFree etag.version := (hlog x (by simp)).produced hproduces
      have hafter : LogColonFree after := fun d hd => hlog d (by simp [hd])
      have hversion := WeakEtag.version_eq_of_identity_eq (hafter.standing hf) hx hid
      exact hold f ⟨hf, hversion ▸ hc⟩ hid
  · rintro (h | ⟨⟨before, x, after, rfl, hproduces, hends, hold⟩, hc, hnew⟩)
    · exact Or.inl h
    · refine Or.inr ⟨before, x, after, rfl, hproduces, ⟨hends, hc⟩, hnew, ?_⟩
      exact fun f hf => hold f hf.1

/-- Where an etag stands, its identity has a latest one. -/
theorem Standing.exists_latest (hlog : LogColonFree log) (h : Standing catalog log etag) :
    ∃ last, Latest catalog log last ∧ last.identity = etag.identity := by
  -- on the log from its end: the last change produces the etag of the identity, or leaves it
  induction log using List.reverseRecOn with
  | nil => exact absurd h not_standing_nil
  | append_singleton log c ih =>
    have hbefore : LogColonFree log := fun d hd => hlog d (by simp [hd])
    by_cases hnew : ∃ f, c.event.Produces catalog c.now f ∧ f.identity = etag.identity
    · obtain ⟨f, hf, hid⟩ := hnew
      exact ⟨f, (latest_concat_iff hlog).mpr (Or.inl hf), hid⟩
    · rcases standing_concat_iff.mp h with hp | ⟨hst, hends⟩
      · exact absurd ⟨etag, hp, rfl⟩ hnew
      · obtain ⟨last, hlast, hid⟩ := ih hbefore hst
        have hversion := WeakEtag.version_eq_of_identity_eq (hbefore.standing hlast.standing)
          (hbefore.standing hst) hid
        refine ⟨last, (latest_concat_iff hlog).mpr (Or.inr ⟨hlast, ?_, ?_⟩), hid⟩
        · rwa [hversion]
        · intro f hf hfid
          exact hnew ⟨f, hf, hfid.trans hid⟩

end

/-! ### The cache of a run -/

section

variable (catalog : Catalog)

/-- The store holds the latest etags of the log, under their two keys. -/
structure Replays (log : List Completed) (s : LinkStore) : Prop extends s.Paired where
  stored?_iff : ∀ {i : String} {etag : WeakEtag},
    s.stored? i = some etag ↔ Latest catalog log etag ∧ etag.identity = i

variable {catalog}

theorem replays_empty : Replays catalog [] .empty where
  toPaired := LinkStore.paired_empty
  stored?_iff := by
    intro i etag
    constructor
    · intro h
      simp at h
    · rintro ⟨h, -⟩
      exact absurd h.standing not_standing_nil

/-- A change leads from the replay of the log to the replay of the log with the change. -/
theorem Replays.applied {log : List Completed} {s : LinkStore} {c : Completed}
    (hlog : LogColonFree (log ++ [c])) (h : Replays catalog log s) :
    Replays catalog (log ++ [c]) (c.event.applied catalog c.now s) where
  toPaired := applied_paired (hlog c (by simp)) h.toPaired
  stored?_iff := by
    intro i etag
    rw [stored?_applied (hlog c (by simp)) h.toPaired, latest_concat_iff hlog, h.stored?_iff]
    constructor
    · rintro (⟨hp, hid⟩ | ⟨⟨hold, rfl⟩, hends, hnew⟩)
      exacts [⟨Or.inl hp, hid⟩, ⟨Or.inr ⟨hold, hends, hnew⟩, rfl⟩]
    · rintro ⟨hp | ⟨hold, hends, hnew⟩, rfl⟩
      exacts [Or.inl ⟨hp, rfl⟩, Or.inr ⟨⟨hold, rfl⟩, hends, hnew⟩]

/-- An identity is stored exactly if an etag of it stands. -/
theorem Replays.exists_stored?_iff {log : List Completed} {s : LinkStore}
    (hlog : LogColonFree log) (h : Replays catalog log s) {i : String} :
    (∃ etag, s.stored? i = some etag) ↔ ∃ etag, Standing catalog log etag ∧ etag.identity = i := by
  constructor
  · rintro ⟨etag, hst⟩
    obtain ⟨hlatest, hid⟩ := h.stored?_iff.mp hst
    exact ⟨etag, hlatest.standing, hid⟩
  · rintro ⟨etag, hst, rfl⟩
    obtain ⟨last, hlast, hid⟩ := hst.exists_latest hlog
    exact ⟨last, h.stored?_iff.mpr ⟨hlast, hid⟩⟩

open Processor

/-- After every run of payloads the cache is the replay of the completed changes. -/
theorem replays_afterAll (catalog : Catalog) (reports : Telemetry) (deliveries : List Delivery)
    (hlog : LogColonFree (completedLog {} deliveries)) :
    ∃ s, (afterAll catalog deliveries (fresh reports)).cache.store = .bounded s ∧
      Replays catalog (completedLog {} deliveries) s := by
  induction deliveries using List.reverseRecOn with
  | nil => exact ⟨.empty, rfl, replays_empty⟩
  | append_singleton ds d ih =>
    rw [completedLog_append] at hlog ⊢
    obtain ⟨s, hs, hreplays⟩ := ih fun c hc => hlog c (by simp [hc])
    have hpending : (afterAll catalog ds (fresh reports)).pending = pendingAfter {} ds :=
      pending_afterAll catalog ds _
    rw [afterAll_append]
    -- the log grows by the change that the payload completes, or stays as it is
    rcases hc : (completes (pendingAfter {} ds) d.payload).1 with - | e
    · refine ⟨s, ?_, ?_⟩
      · rw [store_handle_of_not_completes (by rwa [hpending]), hs]
      · simpa [completedLog, hc] using hreplays
    · have hone : completedLog (pendingAfter {} ds) [d] = [⟨d.now, e⟩] := by
        simp [completedLog, hc]
      rw [hone] at hlog ⊢
      refine ⟨e.applied catalog d.now s, ?_, hreplays.applied hlog⟩
      exact (handle_of_completes (by rwa [hpending]) hs).2

/-- What becomes of a payload that completes a change, at any place of a run. -/
theorem outcome_afterAll (catalog : Catalog) (reports : Telemetry) {before : List Delivery}
    {d : Delivery} {e : Event} (hlog : LogColonFree (completedLog {} (before ++ [d])))
    (he : (completes (pendingAfter {} before) d.payload).1 = some e) :
    ∃ s outcome, (afterAll catalog before (fresh reports)).cache.store = .bounded s ∧
      (handle catalog d.now d.payload (afterAll catalog before (fresh reports))).1 =
        .ok (some outcome) ∧
      (outcome.added = true ↔ ∃ etag, e.Produces catalog d.now etag) ∧
      (outcome.removed = true ↔ ∃ v, e.Ends v ∧ s.HoldsVersion v) := by
  rw [completedLog_append] at hlog
  have hcolon : e.VersionsColonFree := hlog ⟨d.now, e⟩ (by simp [completedLog, he])
  obtain ⟨s, hs, hreplays⟩ :=
    replays_afterAll catalog reports before fun c hc => hlog c (by simp [hc])
  have hpending : (afterAll catalog before (fresh reports)).pending = pendingAfter {} before :=
    pending_afterAll catalog before _
  refine ⟨s, e.outcome catalog d.now s, hs, ?_, outcome_added_iff, ?_⟩
  · exact (handle_of_completes (by rwa [hpending]) hs).1
  · exact outcome_removed_iff hcolon hreplays.toPaired

/-- After any run of payloads, an identity is stored exactly if an etag of it stands, and then it
is the latest one; a version is found exactly if an etag of it is stored; and every completed
change told exactly whether it produced an etag, and whether it ended a version that was stored
just before. -/
theorem cache_replays_log (catalog : Catalog) (reports : Telemetry) (deliveries : List Delivery)
    (hlog : LogColonFree (completedLog {} deliveries)) :
    ∃ s, (afterAll catalog deliveries (fresh reports)).cache.store = .bounded s ∧
      (∀ i, (∃ etag, s.stored? i = some etag) ↔
        ∃ etag, Standing catalog (completedLog {} deliveries) etag ∧ etag.identity = i) ∧
      (∀ i etag, s.stored? i = some etag ↔
        Latest catalog (completedLog {} deliveries) etag ∧ etag.identity = i) ∧
      (∀ v, ColonFree v →
        (((Cache.holds v).run (afterAll catalog deliveries (fresh reports)).cache).1 = .ok true ↔
          s.HoldsVersion v)) ∧
      ∀ before d after e, deliveries = before ++ d :: after →
        (completes (pendingAfter {} before) d.payload).1 = some e →
        ∃ t outcome, (afterAll catalog before (fresh reports)).cache.store = .bounded t ∧
          (handle catalog d.now d.payload (afterAll catalog before (fresh reports))).1 =
            .ok (some outcome) ∧
          (outcome.added = true ↔ ∃ etag, e.Produces catalog d.now etag) ∧
          (outcome.removed = true ↔ ∃ v, e.Ends v ∧ t.HoldsVersion v) := by
  obtain ⟨s, hs, hreplays⟩ := replays_afterAll catalog reports deliveries hlog
  refine ⟨s, hs, fun i => hreplays.exists_stored?_iff hlog, fun i etag => hreplays.stored?_iff,
    ?_, ?_⟩
  · intro v hv
    rw [(Cache.Takes.holds s v).answer_eq hs, Except.ok.injEq]
    exact hreplays.contains_iff hv
  · rintro before d after e rfl he
    refine outcome_afterAll catalog reports ?_ he
    rw [List.append_cons, completedLog_append] at hlog
    intro c hc
    exact hlog c (List.mem_append_left _ hc)

/-! ### Two insertions -/

/-- An elm that is new at version 11, in a message that names an old version nevertheless. -/
def newElm : Event :=
  plantChange .insert (some "10") (some "11") "elm"

theorem parse_newElm :
    Notification.parse (plantPayload newElm) = .ok (newElm.notification ⟨1, 1, newElm.row⟩) := by
  cbv

def oakDelivery : Delivery :=
  ⟨"", plantPayload newOak⟩

def elmDelivery : Delivery :=
  ⟨"", plantPayload newElm⟩

theorem completedLog_newPlants :
    completedLog {} [oakDelivery, elmDelivery] = [⟨"", newOak⟩, ⟨"", newElm⟩] := by
  simp [completedLog, oakDelivery, elmDelivery, completes_plantPayload _ parse_newOak,
    completes_plantPayload _ parse_newElm]

theorem colonFree_newOak : newOak.VersionsColonFree :=
  ⟨fun v h => (by cases h), fun v h => (by cases h; decide)⟩

theorem colonFree_newElm : newElm.VersionsColonFree :=
  ⟨fun v h => (by cases h; decide), fun v h => (by cases h; decide)⟩

theorem colonFree_newPlants : LogColonFree (completedLog {} [oakDelivery, elmDelivery]) := by
  rw [completedLog_newPlants]
  intro c hc
  simp only [List.mem_cons, List.not_mem_nil, or_false] at hc
  rcases hc with rfl | rfl
  exacts [colonFree_newOak, colonFree_newElm]

/-- The oak is stored after both insertions. -/
theorem cache_replays_newPlants :
    LogColonFree (completedLog {} [oakDelivery, elmDelivery]) ∧
      ∃ s etag,
        (afterAll plants [oakDelivery, elmDelivery] (fresh {})).cache.store = .bounded s ∧
        s.stored? (plantEtag "oak" "10").identity = some etag := by
  refine ⟨colonFree_newPlants, ?_⟩
  obtain ⟨s, hs, hstored, -⟩ :=
    cache_replays_log plants {} [oakDelivery, elmDelivery] colonFree_newPlants
  have hstanding : Standing plants (completedLog {} [oakDelivery, elmDelivery])
      (plantEtag "oak" "10") := by
    refine ⟨[], ⟨"", newOak⟩, [⟨"", newElm⟩], completedLog_newPlants, produces_newOak, ?_⟩
    intro d hd
    cases List.mem_singleton.mp hd
    rintro ⟨h | h, -⟩ <;> cases h
  obtain ⟨etag, hetag⟩ := (hstored _).mpr ⟨_, hstanding, rfl⟩
  exact ⟨s, etag, hs, hetag⟩

/-- The message about the elm names a version that is stored, and removes nothing. -/
theorem newElm_removes_nothing :
    ∃ s outcome, (afterAll plants [oakDelivery] (fresh {})).cache.store = .bounded s ∧
      (completes (pendingAfter {} [oakDelivery]) elmDelivery.payload).1 = some newElm ∧
      (handle plants elmDelivery.now elmDelivery.payload
        (afterAll plants [oakDelivery] (fresh {}))).1 = .ok (some outcome) ∧
      ¬ (outcome.removed = true ↔ ∃ v, newElm.oldVersion = some v ∧ s.HoldsVersion v) := by
  have hoak : (afterAll plants [oakDelivery] (fresh {})).cache.store =
      .bounded (newOak.applied plants "" .empty) := by
    simp only [afterAll, List.foldl_cons, List.foldl_nil]
    refine (handle_of_completes ?_ rfl).2
    rw [oakDelivery, completes_plantPayload _ parse_newOak]
  have helm : ∀ pending, (completes pending elmDelivery.payload).1 = some newElm := by
    intro pending
    rw [elmDelivery, completes_plantPayload _ parse_newElm]
  have hheld : (newOak.applied plants "" .empty).HoldsVersion "10" := by
    refine ⟨(plantEtag "oak" "10").identity, plantEtag "oak" "10", ?_, rfl⟩
    exact (stored?_applied colonFree_newOak LinkStore.paired_empty).mpr
      (Or.inl ⟨produces_newOak, rfl⟩)
  refine ⟨_, _, hoak, helm _, (handle_of_completes (helm _) hoak).1, ?_⟩
  intro h
  have hremoved := h.mpr ⟨"10", rfl, hheld⟩
  cases hremoved

end

end FreshTag.Change
