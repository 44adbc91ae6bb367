/-
FreshTag/Telemetry/Filter.lean

Which records are shown.  The threshold of the settings is for all records; a
list of directives takes its place as soon as one of them can be read.

A single directive decides on a record: of those that are for it the one with
the longest path, of these one with a field if there is any, and of equal ones
the last.  A record that no directive is for is not shown.  Records stand
outside of all spans, and the value of a field is only looked at in spans, so a
directive that asks for either is for no record.
-/
import FreshTag.Telemetry.Directive

namespace FreshTag.Log

namespace Directive

/-- The directive is for the record. -/
def covers (d : Directive) (r : Record) : Bool :=
  d.span.isNone &&
    d.path.all (fun path => (Text.dropStart? path.toList r.source.path.toList).isSome) &&
    d.field.all fun f => !f.hasValue && r.fieldNames.contains f.name

/-- The length of the path. -/
def reach (d : Directive) : Nat :=
  (d.path.map String.length).getD 0

/-- The first test is to be preferred to the second, or they are equal. -/
def sharper : Option FieldTest → Option FieldTest → Bool
  | _, none => true
  | none, some _ => false
  | some f, some g => decide (g.name ≤ f.name)

/-- For a record that both are for, `d` is to be preferred to `e`, which stands before it. -/
def supersedes (d e : Directive) : Bool :=
  e.reach < d.reach || (e.reach == d.reach && sharper d.field e.field)

end Directive

/-- What shows some records and not others. -/
structure Filter where
  directives : List Directive
  deriving DecidableEq, Repr

namespace Filter

/-- The filter of the settings and of the directives that take their place; none if the list of
directives is spoilt. -/
def ofSettings? (threshold : Threshold) (directives : Option String) : Option Filter :=
  (Directive.list? (directives.getD "")).map fun
    | [] => { directives := [{ threshold }] }
    | ds => { directives := ds }

/-- The directive that decides on the record. -/
def deciding? (f : Filter) (r : Record) : Option Directive :=
  (f.directives.filter (·.covers r)).foldl (fun best d =>
    match best with
    | none => some d
    | some e => if d.supersedes e then some d else some e) none

/-- The record is shown. -/
def shows (f : Filter) (r : Record) : Bool :=
  match f.deciding? r with
  | none => false
  | some d => d.threshold.shows r.level

/-- Without directives the settings decide on every record. -/
theorem shows_ofSettings?_none (threshold : Threshold) (r : Record) :
    (ofSettings? threshold none).map (·.shows r) = some (threshold.shows r.level) := by
  simp [ofSettings?, shows, deciding?, Directive.covers]

end Filter

end FreshTag.Log
