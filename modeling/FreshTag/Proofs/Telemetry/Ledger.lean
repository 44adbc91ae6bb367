/-
FreshTag/Proofs/Telemetry/Ledger.lean

The metrics agree with what they measure.  A ledger is a processor over a cache
inside the process, with the answers so far of everything that is counted: the
lookups of strong etags and the payloads.  After any activities the gauges, as
far as they were ever set, equal the sizes that they stand for, and the counters
equal the numbers of answers of their kind (`metrics_agree`).

That `Agrees` is kept is shown for what an activity marks in the metrics
(`Agrees.asked`, `Agrees.applied`), not for each activity anew.
-/
import FreshTag.Proofs.Cache.Agreement
import FreshTag.Proofs.Change.Deliveries
import FreshTag.Proofs.Telemetry.Marks

namespace FreshTag.Change

open Cache (Gauged Marked Marks Quiet lookupMetrics searchAnswers)

/-- Something that is done with a processor and its cache. -/
inductive Activity where
  | perform (r : Cache.Request)
  | contains (strong : String)
  | containsOne (candidates : List String)
  | remember (etag : WeakEtag)
  | handle (catalog : Catalog) (now payload : String)

/-- A processor, and the answers so far that are counted. -/
structure Ledger where
  processor : Processor
  /-- the answers of lookups, the oldest first -/
  lookups : List (Except Cache.Error Bool) := []
  /-- what became of payloads, the oldest first -/
  payloads : List (Except PayloadError (Option Outcome)) := []

namespace Ledger

/-- The ledger after an activity. -/
def after (l : Ledger) : Activity → Ledger
  | .perform r => { l with processor.cache := r.perform l.processor.cache }
  | .contains strong =>
    let run := (Cache.contains strong).run l.processor.cache
    { l with processor.cache := run.2, lookups := l.lookups ++ [run.1] }
  | .containsOne candidates =>
    { l with
      processor.cache := ((Cache.containsOne candidates).run l.processor.cache).2
      lookups := l.lookups ++ searchAnswers candidates l.processor.cache }
  | .remember etag =>
    { l with processor.cache := ((Cache.remember etag).run l.processor.cache).2 }
  | .handle catalog now payload =>
    let run := l.processor.handle catalog now payload
    { l with processor := run.2, payloads := l.payloads ++ [run.1] }

/-- The ledger of a processor that begins, over an empty cache, after some activities.  There may be
records in the log already, but no metric was touched. -/
def ofActivities (log : List Log.Record) (activities : List Activity) : Ledger :=
  activities.foldl after { processor := .fresh { log } }

/-- The values of the metrics. -/
abbrev metrics (l : Ledger) : Metrics :=
  l.processor.cache.telemetry.metrics

/-! ### What is counted -/

/-- The counters of lookups. -/
def lookupCounters : List Metric :=
  CacheKind.all.flatMap fun kind => [.lookups kind true, .lookups kind false]

/-- The counters of completed changes. -/
def eventCounters : List Metric :=
  Action.all.map .events

/-- The lookup has an answer. -/
def isAnswered : Except Cache.Error Bool → Bool
  | .ok _ => true
  | .error _ => false

/-- The lookup has found something. -/
def isHit : Except Cache.Error Bool → Bool
  | .ok hit => hit
  | .error _ => false

/-- The payload has completed a change. -/
def isOutcome : Except PayloadError (Option Outcome) → Bool
  | .ok (some _) => true
  | _ => false

/-- The metrics of a ledger are right. -/
structure Agrees (l : Ledger) : Prop where
  /-- the gauge of stored etags -/
  gauged : l.processor.cache.Gauged
  pending : ∀ n, l.metrics.get .pendingMessages = some n → n = l.processor.pending.size
  lookups : l.metrics.sum lookupCounters = l.lookups.countP isAnswered
  hits : l.metrics.total (.lookups .naive true) = l.lookups.countP isHit
  events : l.metrics.sum eventCounters = l.payloads.countP isOutcome
  samples : l.metrics.total .applyTime = l.payloads.countP isOutcome

theorem agrees_fresh (log : List Log.Record) : Agrees { processor := .fresh { log } } where
  gauged := ⟨.empty, rfl, nofun⟩
  pending := nofun
  lookups := rfl
  hits := rfl
  events := rfl
  samples := rfl

/-- The ledger once a page was taken and reported, but nothing was applied. -/
def withPage (l : Ledger) (n : Notification) (p : Page) : Ledger :=
  let pending := (l.processor.pending.push n p).2
  { l with
    processor.pending := pending
    processor.cache.telemetry :=
      Processor.reportPage n.md5 p pending l.processor.cache.telemetry }

/-- A payload with a page has that page taken, and then what it completes applied. -/
theorem after_handle (l : Ledger) (catalog : Catalog) (now : String) {payload : String}
    {n : Notification} {p : Page} (h : readPayload payload = .ok (n, p)) :
    l.after (.handle catalog now payload) =
      match (l.processor.pending.push n p).1 with
      | none => { l.withPage n p with payloads := l.payloads ++ [.ok none] }
      | some e =>
        let applied := apply catalog now e (l.withPage n p).processor.cache
        { l.withPage n p with
          processor.cache := applied.2
          payloads := l.payloads ++ [.ok (some applied.1)] } := by
  rcases hpush : l.processor.pending.push n p with ⟨- | e, pending⟩
  · simp [after, Processor.handle, withPage, h, hpush]
  · simp only [after, Processor.handle, withPage, h, hpush]
    rfl

/-! ### Lookups -/

/-- Lookups raise the sum of some counters by as many as there are answers of a kind, if each of
them does. -/
theorem sum_count_lookups {counted : List Metric} {p : Except Cache.Error Bool → Bool}
    (h : ∀ answer, ((lookupMetrics answer).map counted.count).sum = if p answer then 1 else 0)
    (answers : List (Except Cache.Error Bool)) :
    ((answers.flatMap lookupMetrics).map counted.count).sum = answers.countP p := by
  induction answers with
  | nil => rfl
  | cons answer answers ih =>
    rw [List.flatMap_cons, List.map_append, List.sum_append, h, ih, List.countP_cons, Nat.add_comm]

theorem not_mem_flatMap_lookupMetrics {m : Metric} (h : ∀ hit, .lookups .naive hit ≠ m)
    (answers : List (Except Cache.Error Bool)) : m ∉ answers.flatMap lookupMetrics := by
  intro hm
  obtain ⟨cause | hit, -, hmem⟩ := List.mem_flatMap.mp hm
  · cases hmem
  · exact h hit (List.mem_singleton.mp hmem).symm

namespace Agrees

variable {l : Ledger} (h : l.Agrees)

include h

/-- Where lookups were made, their answers are counted. -/
theorem asked (answers : List (Except Cache.Error Bool)) {c : Cache}
    (hc : Marked (answers.flatMap lookupMetrics) l.processor.cache c) :
    Agrees { l with processor.cache := c, lookups := l.lookups ++ answers } where
  gauged := hc.gauged
  pending := by
    have hnot := not_mem_flatMap_lookupMetrics (m := .pendingMessages) nofun answers
    have hsame := hc.get_eq_of_not_mem (m := .pendingMessages) nofun hnot
    exact fun n hn => h.pending n (hsame.symm.trans hn)
  lookups := by
    have hsum := hc.sum_eq lookupCounters (by decide)
    rw [sum_count_lookups (p := isAnswered)] at hsum
    · exact hsum.trans (by rw [List.countP_append, ← h.lookups])
    · rintro (cause | (- | -)) <;> rfl
  hits := by
    have hsum := hc.sum_eq [.lookups .naive true] (by decide)
    rw [sum_count_lookups (p := isHit), Metrics.sum_singleton, Metrics.sum_singleton] at hsum
    · exact hsum.trans (by rw [List.countP_append, ← h.hits])
    · rintro (cause | (- | -)) <;> rfl
  events := by
    have hsum := hc.sum_eq eventCounters (by decide)
    rw [sum_count_lookups (p := fun _ => false), List.countP_false] at hsum
    · exact hsum.trans h.events
    · rintro (cause | (- | -)) <;> rfl
  samples := by
    have hnot := not_mem_flatMap_lookupMetrics (m := .applyTime) nofun answers
    have hsame := hc.get_eq_of_not_mem (m := .applyTime) nofun hnot
    exact (congrArg (·.getD 0) hsame).trans h.samples

/-- An operation that is not counted leaves the metrics right. -/
theorem kept {α : Type} {op : StateM Cache α} (hop : Quiet op) :
    Agrees { l with processor.cache := (op l.processor.cache).2 } := by
  have hkept := h.asked [] (hop l.processor.cache h.gauged)
  rwa [List.append_nil] at hkept

/-! ### Changes -/

/-- Where a change was applied, it is counted. -/
theorem applied {a : Action} {c : Cache}
    (hc : Marked [.events a, .applyTime] l.processor.cache c) (outcome : Outcome) :
    Agrees { l with processor.cache := c, payloads := l.payloads ++ [.ok (some outcome)] } where
  gauged := hc.gauged
  pending := by
    have hsame := hc.get_eq_of_not_mem (m := .pendingMessages) nofun (by simp)
    exact fun n hn => h.pending n (hsame.symm.trans hn)
  lookups := by
    have hsum := hc.sum_eq lookupCounters (by decide)
    exact hsum.trans h.lookups
  hits := by
    have hsame := hc.get_eq_of_not_mem (m := .lookups .naive true) nofun (by simp)
    exact (congrArg (·.getD 0) hsame).trans h.hits
  events := by
    have hsum := hc.sum_eq eventCounters (by decide)
    refine hsum.trans ?_
    rw [List.countP_append, ← h.events]
    cases a <;> rfl
  samples := by
    have hsum := hc.sum_eq [.applyTime] (by decide)
    rw [Metrics.sum_singleton, Metrics.sum_singleton] at hsum
    refine hsum.trans ?_
    rw [List.countP_append, ← h.samples]
    rfl

/-- A payload without an outcome is not counted. -/
theorem passed (answer : Except PayloadError (Option Outcome))
    (hanswer : isOutcome answer = false) :
    Agrees { l with payloads := l.payloads ++ [answer] } := by
  have hcount : (l.payloads ++ [answer]).countP isOutcome = l.payloads.countP isOutcome := by
    simp [List.countP_append, hanswer]
  exact { h with events := h.events.trans hcount.symm, samples := h.samples.trans hcount.symm }

/-- A page that was taken and reported leaves the metrics right. -/
theorem paged (n : Notification) (p : Page) : Agrees (l.withPage n p) := by
  have hsame := fun m => Processor.metrics_reportPage n.md5 p (l.processor.pending.push n p).2
    l.processor.cache.telemetry (m := m)
  have hsum : ∀ counted : List Metric, Metric.pendingMessages ∉ counted →
      (Processor.reportPage n.md5 p (l.processor.pending.push n p).2
        l.processor.cache.telemetry).metrics.sum counted = l.metrics.sum counted := by
    intro counted hnot
    unfold Metrics.sum Metrics.total
    congr 1
    refine List.map_congr_left fun m hm => ?_
    rw [hsame m (by rintro rfl; exact hnot hm)]
  obtain ⟨links, hstore, hgauge⟩ := h.gauged
  exact {
    gauged :=
      ⟨links, hstore, fun n hn => hgauge n ((hsame .storedEtags nofun).symm.trans hn)⟩
    pending := fun size hsize => by
      change (Processor.reportPage _ _ _ _).metrics.get _ = _ at hsize
      -- a page that is alone leaves both the pending changes and their gauge as they are
      by_cases hsingle : p.isSingle = true
      · have hpending : (l.withPage n p).processor.pending = l.processor.pending := by
          simp [withPage, Pending.push, hsingle]
        simp only [Processor.reportPage, hsingle, if_true] at hsize
        rw [hpending]
        exact h.pending size hsize
      · simp only [Processor.reportPage, hsingle, Bool.false_eq_true, if_false] at hsize
        exact (Option.some.inj hsize).symm
    lookups := (hsum lookupCounters (by decide)).trans h.lookups
    hits := (congrArg (·.getD 0) (hsame (.lookups .naive true) nofun)).trans h.hits
    events := (hsum eventCounters (by decide)).trans h.events
    samples := (congrArg (·.getD 0) (hsame .applyTime nofun)).trans h.samples }

theorem handled (catalog : Catalog) (now payload : String) :
    Agrees (l.after (.handle catalog now payload)) := by
  rcases hread : readPayload payload with cause | ⟨n, p⟩
  · have hrefused : l.after (.handle catalog now payload) =
        { l with payloads := l.payloads ++ [.error cause] } := by
      simp [Ledger.after, Processor.handle, hread]
    rw [hrefused]
    exact h.passed (.error cause) rfl
  · have hpaged := h.paged n p
    rw [after_handle _ _ _ hread]
    rcases (l.processor.pending.push n p).1 with - | e
    · exact hpaged.passed (.ok none) rfl
    · exact hpaged.applied (marks_apply catalog now e _ hpaged.gauged) _

/-! ### Activities -/

theorem after (a : Activity) : Agrees (l.after a) := by
  cases a with
  | perform r =>
    cases r with
    | add key etag => exact h.kept (.add key etag)
    | remove key => exact h.kept (.remove key)
    | holds key => exact h.kept (.holds key)
    | size => exact h.kept .size
    | find key => exact h.kept (.find key)
  | contains strong =>
    refine h.asked [_] ?_
    rw [List.flatMap_singleton]
    exact Marks.contains strong _ h.gauged
  | containsOne candidates => exact h.asked _ (Cache.marked_containsOne candidates h.gauged)
  | remember etag => exact h.kept (.remember etag)
  | handle catalog now payload => exact h.handled catalog now payload

end Agrees

/-- After any activities of a processor that began over an empty cache, its metrics agree with what
they measure: the gauges that were set with the number of stored etags and of changes that are
pending, the counters and samples with the answers of lookups and payloads. -/
theorem metrics_agree (log : List Log.Record) (activities : List Activity) :
    (ofActivities log activities).Agrees := by
  unfold ofActivities
  induction activities using List.reverseRecOn with
  | nil => exact agrees_fresh log
  | append_singleton activities a ih =>
    rw [List.foldl_append]
    exact ih.after a

end Ledger

end FreshTag.Change
