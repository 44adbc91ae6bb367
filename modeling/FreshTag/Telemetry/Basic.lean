/-
FreshTag/Telemetry/Basic.lean

What the service leaves behind for its operators while it runs: the values of
its metrics and the log, oldest record first.
-/
import FreshTag.Telemetry.Log
import FreshTag.Telemetry.Metrics

namespace FreshTag

/-- Metrics and log. -/
structure Telemetry where
  metrics : Metrics := .untouched
  log : List Log.Record := []
  deriving Inhabited

namespace Telemetry

/-- Appends a record to the log. -/
def record (t : Telemetry) (source : Log.Source) (level : Log.Level) (message : String)
    (fields : List (String × Json.Value) := []) : Telemetry :=
  { t with log := t.log ++ [{ source, level, message, fields }] }

/-- Adds one to a counter or histogram. -/
def count (t : Telemetry) (m : Metric) : Telemetry :=
  { t with metrics := t.metrics.increment m }

/-- Sets a gauge. -/
def gauge (t : Telemetry) (m : Metric) (value : Nat) : Telemetry :=
  { t with metrics := t.metrics.set m value }

end Telemetry

end FreshTag
