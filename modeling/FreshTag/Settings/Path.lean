/-
FreshTag/Settings/Path.lean

Where a setting is: a name, and then names behind points and places in lists
in brackets, `catalog.include[0]`.  A negative place counts from the end.  A
text that is not of this form is a name as a whole.

Writing to a path makes the tables and lists on the way, in place of anything
else that stands there.
-/
import FreshTag.Settings.Value

namespace FreshTag.Settings

/-- A step from a value to one inside it. -/
inductive Step where
  | entry (name : String)
  | item (place : Int)
  deriving DecidableEq, Repr

/-- The way to a setting. -/
structure Path where
  first : String
  steps : List Step := []
  deriving DecidableEq, Repr

namespace Path

/-- The character may stand in a name. -/
def isNameChar (c : Char) : Bool :=
  c.isAlphanum || c == '_' || c == '-'

/-- A space or a tab, which may stand between a bracket and a place. -/
def isGap (c : Char) : Bool :=
  c == ' ' || c == '\t'

/-- The place in brackets and what follows the closing one. -/
def readPlace (cs : List Char) : Option (Int × List Char) :=
  let (negative, ds) := match cs.dropWhile isGap with
    | '-' :: ds => (true, ds)
    | ds => (false, ds)
  match Number.digits? (ds.takeWhile Char.isDigit), (ds.dropWhile Char.isDigit).dropWhile isGap with
  | some n, ']' :: rest =>
    let i : Int := if negative then -(n : Int) else n
    if -(Number.twoTo 63 : Int) ≤ i ∧ i < Number.twoTo 63 then some (i, rest) else none
  | _, _ => none

/-- The steps of a text, by at most `fuel` of them. -/
def readSteps : Nat → List Char → Option (List Step)
  | _, [] => some []
  | 0, _ => none
  | fuel + 1, '.' :: cs =>
    let name := cs.takeWhile isNameChar
    if name = [] then none
    else (readSteps fuel (cs.dropWhile isNameChar)).map (.entry (String.ofList name) :: ·)
  | fuel + 1, '[' :: cs => do
    let (place, rest) ← readPlace cs
    let steps ← readSteps fuel rest
    some (.item place :: steps)
  | _, _ => none

/-- The path that a text denotes. -/
def ofText (s : String) : Path :=
  let cs := s.toList
  let name := cs.takeWhile isNameChar
  let steps := readSteps cs.length (cs.dropWhile isNameChar)
  match name, steps with
  | [], _ => { first := s }
  | _, none => { first := s }
  | _, some steps => { first := String.ofList name, steps }

/-- Changes the item in a place, with `null` in the places that the list lacks. -/
def alterItem (place : Int) (f : Value → Value) (items : List Value) : List Value :=
  if 0 ≤ place then
    let padded := items ++ List.replicate (place.toNat + 1 - items.length) .null
    padded.modify place.toNat f
  else
    let back := place.natAbs
    let padded := List.replicate (back - items.length) .null ++ items
    padded.modify (padded.length - back) f

/-- Changes the value at the end of some steps. -/
def alterAt (f : Value → Value) : List Step → Value → Value
  | [], v => f v
  | .entry name :: steps, v => v.alter name (alterAt f steps)
  | .item place :: steps, v =>
    match v with
    | .list items => .list (alterItem place (alterAt f steps) items)
    | _ => .list (alterItem place (alterAt f steps) [])

/-- Merges a value over the one at the end of the path. -/
def write (p : Path) (v : Value) (root : Value) : Value :=
  alterAt (fun weaker => weaker.merge v) (.entry p.first :: p.steps) root

end Path

end FreshTag.Settings
