/-
FreshTag/Telemetry/Metrics.lean

The metrics of the service.  There are finitely many, so a set of metrics is a
map from each of them to its value, absent until it is first touched.  A
counter and a histogram only ever grow by one; a gauge is set to a size.

`Metrics.get_set` and `Metrics.get_increment` say what an update does.
-/
import FreshTag.Cache.Kind
import FreshTag.Change.Action

namespace FreshTag

/-- A metric with its labels. -/
inductive Metric where
  /-- lookups of strong etags, by the cache asked and by success -/
  | lookups (cache : CacheKind) (hit : Bool)
  /-- weak etags in the cache inside the process -/
  | storedEtags
  /-- completed notifications, by action -/
  | events (action : Change.Action)
  /-- times taken to apply a notification -/
  | applyTime
  /-- notifications of which some pages have not arrived -/
  | pendingMessages
  deriving DecidableEq, Repr

namespace Metric

/-- What kind of metric it is. -/
inductive Form where
  | counter
  | gauge
  | histogram
  deriving DecidableEq, Repr

/-- The form of a metric. -/
def form : Metric → Form
  | .lookups .. => .counter
  | .storedEtags => .gauge
  | .events _ => .counter
  | .applyTime => .histogram
  | .pendingMessages => .gauge

/-- The name of a metric without its labels. -/
def name : Metric → String
  | .lookups .. => "featuretag_cache_contains_total"
  | .storedEtags => "featuretag_cache_naive_entries"
  | .events _ => "featuretag_listener_events_total"
  | .applyTime => "featuretag_listener_apply_ms"
  | .pendingMessages => "featuretag_listener_pending_messages"

/-- The labels of a metric, in the order of their names. -/
def labels : Metric → List (String × String)
  | .lookups cache hit => [("backend", cache.name), ("result", if hit then "hit" else "miss")]
  | .events action => [("action", action.name)]
  | _ => []

/-- All metrics. -/
def all : List Metric :=
  (CacheKind.all.flatMap fun k => [.lookups k true, .lookups k false]) ++ [.storedEtags] ++
    Change.Action.all.map .events ++ [.applyTime, .pendingMessages]

/-- Every metric is listed. -/
theorem mem_all (m : Metric) : m ∈ all := by
  cases m with
  | lookups cache hit => cases cache <;> cases hit <;> decide
  | events action => cases action <;> decide
  | _ => decide

/-- A description for whoever reads the metrics. -/
structure Description where
  form : String
  name : String
  unit : String
  text : String
  deriving DecidableEq, Repr

/-- The descriptions, in the order in which they are announced. -/
def descriptions : List Description := [
  ⟨"counter", "featuretag_cache_contains_total", "count",
    "Strong etag lookups, labelled by backend and hit/miss result."⟩,
  ⟨"gauge", "featuretag_cache_naive_entries", "count",
    "Weak etags held by the in-process cache."⟩,
  ⟨"counter", "featuretag_listener_events_total", "count",
    "Completed change notifications, labelled by action."⟩,
  ⟨"gauge", "featuretag_listener_pending_messages", "count",
    "Multi-page notifications still waiting for their last page."⟩,
  ⟨"histogram", "featuretag_listener_apply_ms", "milliseconds",
    "Time spent applying one change notification to the cache."⟩]

end Metric

/-- The values of the metrics that were touched. -/
structure Metrics where
  get : Metric → Option Nat

namespace Metrics

/-- No metric was touched yet. -/
def untouched : Metrics := ⟨fun _ => none⟩

instance : Inhabited Metrics := ⟨untouched⟩

/-- Gives a gauge a value. -/
def set (ms : Metrics) (m : Metric) (value : Nat) : Metrics :=
  ⟨fun n => if n = m then some value else ms.get n⟩

/-- Adds one to a counter, or one sample to a histogram. -/
def increment (ms : Metrics) (m : Metric) : Metrics :=
  ms.set m ((ms.get m).getD 0 + 1)

/-- The touched metrics with their values. -/
def toList (ms : Metrics) : List (Metric × Nat) :=
  Metric.all.filterMap fun m => (ms.get m).map fun n => (m, n)

theorem get_set (ms : Metrics) (m n : Metric) (value : Nat) :
    (ms.set m value).get n = if n = m then some value else ms.get n := rfl

theorem get_increment (ms : Metrics) (m n : Metric) :
    (ms.increment m).get n = if n = m then some ((ms.get m).getD 0 + 1) else ms.get n := rfl

end Metrics

end FreshTag
