/-
FreshTag/Proofs/Telemetry/Marks.lean

What the operations on a cache inside the process leave in the metrics.
`Marked touched c c'` says that from `c` to `c'` the metrics in `touched` were
incremented, one after the other, and all others left alone, except for the
gauge of stored etags; that one is right in `c'`, if it was ever set.

Most operations increment nothing (`Marks.add`, `Marks.remove`, ...).  A lookup
that answers is counted (`Marks.contains`), and so is a change that is applied,
once by its action and once as a sample of the time it took (`Marks.apply`).
-/
import FreshTag.Change.Processor
import FreshTag.Conditional
import FreshTag.Proofs.Cache.Moves
import Mathlib.Algebra.GroupWithZero.Nat

namespace FreshTag

/-! ### Sums of metrics -/

namespace Metrics

/-- The value of a counter or the number of samples of a histogram, 0 as long as it is untouched. -/
def total (ms : Metrics) (m : Metric) : Nat :=
  (ms.get m).getD 0

/-- The sum of some metrics. -/
def sum (ms : Metrics) (counted : List Metric) : Nat :=
  (counted.map ms.total).sum

/-- The metrics with one more for each of those that were touched. -/
def incrementAll (ms : Metrics) (touched : List Metric) : Metrics :=
  touched.foldl increment ms

theorem sum_singleton (ms : Metrics) (m : Metric) : ms.sum [m] = ms.total m := by
  simp [sum]

theorem total_increment (ms : Metrics) (m n : Metric) :
    (ms.increment m).total n = ms.total n + if m = n then 1 else 0 := by
  unfold total
  rw [get_increment]
  by_cases h : n = m
  · subst h
    simp
  · simp [h, Ne.symm h]

theorem sum_increment (ms : Metrics) (m : Metric) (counted : List Metric) :
    (ms.increment m).sum counted = ms.sum counted + counted.count m := by
  unfold sum
  induction counted with
  | nil => rfl
  | cons n counted ih =>
    simp only [List.map_cons, List.sum_cons, List.count_cons, ih, total_increment, beq_iff_eq,
      eq_comm (a := n)]
    omega

theorem sum_incrementAll (ms : Metrics) (touched counted : List Metric) :
    (ms.incrementAll touched).sum counted =
      ms.sum counted + (touched.map counted.count).sum := by
  unfold incrementAll
  induction touched generalizing ms with
  | nil => rfl
  | cons m touched ih =>
    rw [List.foldl_cons, ih, sum_increment, List.map_cons, List.sum_cons]
    omega

/-- An increment of a metric depends on that metric only. -/
theorem get_incrementAll_congr {ms ms' : Metrics} {m : Metric} (h : ms.get m = ms'.get m)
    (touched : List Metric) :
    (ms.incrementAll touched).get m = (ms'.incrementAll touched).get m := by
  unfold incrementAll
  induction touched generalizing ms ms' with
  | nil => exact h
  | cons n touched ih =>
    refine ih ?_
    rw [get_increment, get_increment]
    by_cases hm : m = n
    · subst hm
      rw [h]
    · simp only [hm, if_false, h]

theorem get_incrementAll_of_not_mem {m : Metric} {touched : List Metric} (h : m ∉ touched)
    (ms : Metrics) : (ms.incrementAll touched).get m = ms.get m := by
  unfold incrementAll
  induction touched generalizing ms with
  | nil => rfl
  | cons n touched ih =>
    rw [List.mem_cons, not_or] at h
    rw [List.foldl_cons, ih h.2, get_increment, if_neg h.1]

end Metrics

namespace Cache

variable {α β : Type}

/-! ### Metrics from one cache to another -/

/-- The cache is inside the process, and the gauge of its etags, if it was ever set, says how many
there are. -/
def Gauged (c : Cache) : Prop :=
  ∃ links, c.store = .bounded links ∧
    ∀ n, c.telemetry.metrics.get .storedEtags = some n → n = links.size

/-- What was reported between two caches: one more for each of the metrics that were touched. -/
structure Marked (touched : List Metric) (c c' : Cache) : Prop where
  gauged : c'.Gauged
  get_eq : ∀ m, m ≠ .storedEtags →
    c'.telemetry.metrics.get m = (c.telemetry.metrics.incrementAll touched).get m

namespace Marked

variable {touched : List Metric} {c c' : Cache}

theorem refl (h : c.Gauged) : Marked [] c c :=
  ⟨h, fun _ _ => rfl⟩

theorem trans {touched' : List Metric} {c'' : Cache} (h : Marked touched c c')
    (h' : Marked touched' c' c'') : Marked (touched ++ touched') c c'' := by
  refine ⟨h'.gauged, fun m hm => ?_⟩
  rw [h'.get_eq m hm, Metrics.get_incrementAll_congr (h.get_eq m hm), Metrics.incrementAll,
    Metrics.incrementAll, Metrics.incrementAll, List.foldl_append]

/-- Sums grow by as much as was touched. -/
theorem sum_eq (h : Marked touched c c') (counted : List Metric)
    (hcounted : Metric.storedEtags ∉ counted) :
    c'.telemetry.metrics.sum counted =
      c.telemetry.metrics.sum counted + (touched.map counted.count).sum := by
  rw [← Metrics.sum_incrementAll]
  unfold Metrics.sum Metrics.total
  congr 1
  refine List.map_congr_left fun m hm => ?_
  rw [h.get_eq m (by rintro rfl; exact hcounted hm)]

theorem get_eq_of_not_mem (h : Marked touched c c') {m : Metric} (hm : m ≠ .storedEtags)
    (hnot : m ∉ touched) : c'.telemetry.metrics.get m = c.telemetry.metrics.get m := by
  rw [h.get_eq m hm, Metrics.get_incrementAll_of_not_mem hnot]

end Marked

/-- The operation touches what `touched` lists for its answer. -/
def Marks (op : StateM Cache α) (touched : α → List Metric) : Prop :=
  ∀ c : Cache, c.Gauged → Marked (touched (op c).1) c (op c).2

/-- The operation touches no metric but the gauge. -/
def Quiet (op : StateM Cache α) : Prop :=
  Marks op fun _ => []

namespace Marks

theorem bind {op : StateM Cache α} {touched : List Metric} (h : Marks op fun _ => touched)
    {f : α → StateM Cache β} {after : β → List Metric} (hf : ∀ x, Marks (f x) after) :
    Marks (op >>= f) fun y => touched ++ after y := by
  intro c hc
  have hop := h c hc
  exact hop.trans (hf (op c).1 (op c).2 hop.gauged)

/-- An operation that begins by looking at the cache. -/
theorem lookOk {f : Cache → Op α} {touched : Except Error α → List Metric}
    (h : ∀ c : Cache, c.Gauged → Marked (touched ((f c).run c).1) c ((f c).run c).2) :
    Marks (get >>= f).run touched :=
  h

end Marks

namespace Quiet

theorem pure (x : α) : Quiet (Pure.pure x) :=
  fun _ h => .refl h

/-- What follows is counted alone. -/
theorem before {op : StateM Cache α} {f : α → StateM Cache β} {touched : β → List Metric}
    (h : Quiet op) (hf : ∀ x, Marks (f x) touched) : Marks (op >>= f) touched :=
  Marks.bind h hf

theorem bind {op : StateM Cache α} {f : α → StateM Cache β} (h : Quiet op)
    (hf : ∀ x, Quiet (f x)) : Quiet (op >>= f) :=
  h.before hf

/-- An operation that may fail ends where it failed. -/
theorem bindOk {op : Op α} {f : α → Op β} (h : Quiet op.run) (hf : ∀ x, Quiet (f x).run) :
    Quiet (op >>= f).run := by
  rw [ExceptT.run_bind]
  refine h.bind fun answer => ?_
  rcases answer with cause | x
  · exact pure _
  · exact hf x

/-- What follows two ways is the same for both. -/
theorem bindEither {p : Prop} [Decidable p] {op op' : StateM Cache α} (h : Quiet op)
    (h' : Quiet op') {f : α → StateM Cache β} {touched : β → List Metric}
    (hf : ∀ x, Marks (f x) touched) : Marks (if p then op >>= f else op' >>= f) touched := by
  split
  · exact h.before hf
  · exact h'.before hf

theorem log (source : Log.Source) (level : Log.Level) (message : String)
    (fields : List (String × Json.Value)) : Quiet (Cache.log source level message fields) :=
  fun _ h => ⟨h, fun _ _ => rfl⟩

/-! ### Operations that are not counted -/

theorem add (key : String) (etag : WeakEtag) : Quiet (Cache.add key etag).run := by
  rintro ⟨store, reports⟩ ⟨links, rfl, -⟩
  refine ⟨⟨links.add key etag, rfl, fun n hn => ?_⟩, fun m hm => ?_⟩
  · exact (Option.some.inj hn).symm
  · exact if_neg hm

theorem remove (key : String) : Quiet (Cache.remove key).run := by
  refine Marks.lookOk ?_
  rintro ⟨store, reports⟩ ⟨links, rfl, hgauge⟩
  rcases h : links.remove? key with - | rest
  · simp only [h]
    exact .refl ⟨links, rfl, hgauge⟩
  · simp only [h]
    refine ⟨⟨rest, rfl, fun n hn => ?_⟩, fun m hm => ?_⟩
    · exact (Option.some.inj hn).symm
    · exact if_neg hm

theorem find (key : String) : Quiet (Cache.find key).run := by
  rintro ⟨store, reports⟩ ⟨links, rfl, hgauge⟩
  exact .refl ⟨links, rfl, hgauge⟩

theorem holds (key : String) : Quiet (Cache.holds key).run := by
  rintro ⟨store, reports⟩ ⟨links, rfl, hgauge⟩
  exact .refl ⟨links, rfl, hgauge⟩

theorem size : Quiet Cache.size := by
  rintro ⟨store, reports⟩ ⟨links, rfl, hgauge⟩
  exact .refl ⟨links, rfl, hgauge⟩

theorem remember (etag : WeakEtag) : Quiet (Cache.remember etag).run := by
  refine (find etag.identity).bindOk fun found => ?_
  rcases found with - | found
  · exact (add _ etag).bindOk fun _ => (add _ etag).bindOk fun _ => pure _
  · exact pure _

end Quiet

/-! ### Lookups -/

/-- What an answered lookup in a cache inside the process is counted as. -/
def lookupMetrics : Except Error Bool → List Metric
  | .ok hit => [.lookups .naive hit]
  | .error _ => []

theorem Marks.contains (strong : String) : Marks (Cache.contains strong).run lookupMetrics := by
  rintro ⟨store, reports⟩ ⟨links, rfl, hgauge⟩
  unfold Cache.contains
  rcases StrongEtag.decode strong with cause | etag
  · exact .refl ⟨links, rfl, hgauge⟩
  · exact ⟨⟨links, rfl, hgauge⟩, fun _ _ => rfl⟩

/-- The answers of the lookups that a search makes, in order: it goes on as long as nothing is found
and no candidate is malformed. -/
def searchAnswers : List String → Cache → List (Except Error Bool)
  | [], _ => []
  | candidate :: rest, c =>
    match (Cache.contains candidate).run c with
    | (.ok false, after) => .ok false :: searchAnswers rest after
    | (answer, _) => [answer]

/-- A search answers what the last one of its lookups answers. -/
theorem containsOne_eq_getLastD (candidates : List String) (c : Cache) :
    ((containsOne candidates).run c).1 = (searchAnswers candidates c).getLastD (.ok false) := by
  induction candidates generalizing c with
  | nil => rfl
  | cons candidate rest ih =>
    unfold containsOne searchAnswers
    rcases hrun : (Cache.contains candidate).run c with ⟨answer, after⟩
    rw [ExceptT.run_bind, bind_of_eq hrun]
    rcases answer with cause | (- | -)
    · rfl
    · rw [List.getLastD_cons]
      exact ih after
    · rfl

/-- A search is counted as all of its lookups. -/
theorem marked_containsOne (candidates : List String) {c : Cache} (hc : c.Gauged) :
    Marked ((searchAnswers candidates c).flatMap lookupMetrics) c
      ((containsOne candidates).run c).2 := by
  induction candidates generalizing c with
  | nil => exact .refl hc
  | cons candidate rest ih =>
    have hfirst : Marked (lookupMetrics ((Cache.contains candidate).run c).1) c
        ((Cache.contains candidate).run c).2 := Marks.contains candidate c hc
    unfold containsOne searchAnswers
    rcases hrun : (Cache.contains candidate).run c with ⟨answer, after⟩
    rw [ExceptT.run_bind, bind_of_eq hrun]
    rw [hrun] at hfirst
    rcases answer with cause | (- | -)
    · exact hfirst
    · exact hfirst.trans (ih hfirst.gauged)
    · have hlog : Marked [] after _ := Quiet.log .conditional .debug "etag found in cache"
        [Log.field "etag" candidate] after hfirst.gauged
      exact hfirst.trans hlog

end Cache

/-! ### Changes -/

namespace Change

open Cache (Quiet Marks)

theorem quiet_warnOf (table message : String) (fields : List (String × Json.Value)) :
    Quiet (warnOf table message fields) :=
  .log _ _ _ _

theorem quiet_invalidate (e : Event) : Quiet (invalidate e) := by
  unfold invalidate
  rcases e.oldVersion with - | version
  · exact (quiet_warnOf _ _ _).bind fun _ => .pure _
  · refine (Quiet.remove _).bind fun answer => ?_
    rcases answer with cause | removed
    · exact (Quiet.log _ _ _ _).bind fun _ => .pure _
    · exact .pure _

theorem quiet_store (etag : WeakEtag) (key : String) : Quiet (store etag key) := by
  refine (Quiet.add key etag).bind fun answer => ?_
  rcases answer with cause | stored
  · exact (Quiet.log _ _ _ _).bind fun _ => .pure _
  · exact .pure _

theorem quiet_enrich (catalog : Catalog) (now : String) (e : Event) (row : Json.Members) :
    Quiet (enrich catalog now e row) := by
  unfold enrich
  rcases etagOf catalog now e row with reason | etag
  · exact Quiet.bindEither (Quiet.log _ _ _ _) (.pure ()) fun _ =>
      (quiet_warnOf _ _ _).bind fun _ => .pure _
  · exact (quiet_store etag _).bind fun _ => (quiet_store etag _).bind fun _ => .pure _

theorem quiet_rowOf (e : Event) : Quiet (rowOf e) := by
  unfold rowOf
  rcases Json.parseMap e.row with cause | row
  · exact (quiet_warnOf _ _ _).bind fun _ => .pure _
  · exact .pure _

theorem marks_count (m : Metric) (hm : m ≠ .storedEtags) :
    Marks (Cache.report (·.count m)) fun _ => [m] := by
  rintro c ⟨links, hstore, hgauge⟩
  refine ⟨⟨links, hstore, fun n hn => hgauge n ?_⟩, fun _ _ => rfl⟩
  exact (if_neg hm.symm).symm.trans hn

/-- A change that is applied is counted by its action, and there is a sample of its time. -/
theorem marks_apply (catalog : Catalog) (now : String) (e : Event) :
    Marks (apply catalog now e) fun _ => [.events e.action, .applyTime] := by
  have hend : ∀ removed added : Bool,
      Marks (do Cache.report (·.count .applyTime); return ({ removed, added } : Outcome))
        fun _ => [.applyTime] :=
    fun removed added => (marks_count .applyTime nofun).bind fun _ => Quiet.pure _
  unfold apply
  refine (marks_count (.events e.action) nofun).bind fun _ => ?_
  refine Quiet.before (.log _ _ _ _) fun _ => ?_
  refine (quiet_rowOf e).before fun row => ?_
  show Marks (if _ then _ else _) _
  refine Quiet.bindEither (quiet_invalidate e) (.pure false) fun removed => ?_
  split
  · exact (quiet_enrich _ _ _ _).before (hend removed)
  · exact (Quiet.pure false).before (hend removed)

end Change

end FreshTag
