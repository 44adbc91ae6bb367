/-
FreshTag/Settings/Reading.lean

Reading a value as the type that a setting has.  Scalars stand for each other
where that makes sense: a number for a text, a text for a number, and both for
a truth value.  Lists are only read from lists.

`null` stands for a setting that is not given, but not for an item of a list.
-/
import FreshTag.Settings.Value

namespace FreshTag.Settings.Value

open FreshTag.Number (Extended)

/-- The truth value of a word, in any case. -/
def wordTruth? (s : String) : Option Bool :=
  match Text.lower s with
  | "true" => some true
  | "on" => some true
  | "yes" => some true
  | "false" => some false
  | "off" => some false
  | "no" => some false
  | _ => none

/-- The value as a truth value; a number is true unless it is 0. -/
def toBool? : Value → Option Bool
  | .bool b => some b
  | .integer i => some (i ≠ 0)
  | .real x => some (!x.isZero)
  | .text s => if s = "1" then some true else if s = "0" then some false else wordTruth? s
  | _ => none

/-- The value as a natural number up to `limit`, which is at most `2 ^ 64 - 1`. -/
def toNat? (limit : Nat) (v : Value) : Option Nat := do
  let n ← match v with
    | .bool b => some b.toNat
    | .integer i => if 0 ≤ i then some i.toNat else none
    | .real x => some (x.toNat (Number.twoTo 64 - 1))
    | .text s =>
      match wordTruth? s with
      | some b => some b.toNat
      | none => Number.natural64? s
    | _ => none
  if n ≤ limit then some n else none

/-- The value as a text. -/
def toText? : Value → Option String
  | .bool b => some (if b then "true" else "false")
  | .integer i => some (toString i)
  | .real x => some x.text
  | .text s => some s
  | _ => none

/-- The value as a list of texts. -/
def toTexts? : Value → Option (List String)
  | .list items => items.mapM toText?
  | _ => none

end FreshTag.Settings.Value
