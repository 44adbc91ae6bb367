/-
FreshTag/Text/Pattern/Brackets.lean

Sets of characters between brackets.  After the opening bracket there may be a
sign of exclusion, and then dashes, or one closing bracket, that stand for
themselves.  What follows are characters, ranges that run upwards, escapes,
sets by name such as `[:digit:]` and sets in brackets of their own, up to the
closing bracket.  Two signs `&&`, `--` or `~~` combine what stands before them
with what follows, from left to right.
-/
import FreshTag.Text.Pattern.Escape

namespace FreshTag.Text.Pattern

/-! ### Members -/

/-- Reads a character or an escape. -/
def readMember (verbose : Bool) : List Char → Option (Escape × List Char)
  | [] => none
  | '\\' :: cs => readEscape verbose cs
  | c :: cs => some (.literal { char := c }, cs)

/-- The set that a member stands for; places are in no set. -/
def setOf? : Escape → Option CharSet
  | .literal c => some (.literal c)
  | .family negated => some (.family negated)
  | .textEdge | .wordEdge => none

/-- The range between two members. -/
def rangeOf? : Escape → Escape → Option CharSet
  | .literal first, .literal last =>
    if first.char ≤ last.char then some (.range first last) else none
  | _, _ => none

/-- The dash in front of these characters is no sign of a range.  Of a comment only the first sign
is passed over here. -/
def endsRange (verbose : Bool) (cs : List Char) : Bool :=
  let next :=
    if verbose then
      match cs.dropWhile isSpace with
      | '#' :: cs => cs.dropWhile isSpace
      | cs => cs
    else cs
  next.head? == some ']' || next.head? == some '-'

/-- Reads a member or a range of members. -/
def readRange (verbose : Bool) (cs : List Char) : Option (CharSet × List Char) := do
  let (first, rest) ← readMember verbose cs
  match skipGap verbose rest with
  | '-' :: after =>
    if endsRange verbose after then
      return (← setOf? first, '-' :: after)
    else
      let (last, rest) ← readMember verbose (skipGap verbose after)
      return (← rangeOf? first last, rest)
  | rest => return (← setOf? first, rest)

/-! ### Sets by name -/

/-- The names of sets of ASCII. -/
def setNames : List String :=
  ["alnum", "alpha", "ascii", "blank", "cntrl", "digit", "graph", "lower", "print", "punct",
   "space", "upper", "word", "xdigit"]

/-- Reads a name and the signs behind it. -/
def readName (negated : Bool) (cs : List Char) : Option (CharSet × List Char) :=
  match cs.dropWhile (· != ':') with
  | ':' :: ']' :: rest =>
    if setNames.contains (String.ofList (cs.takeWhile (· != ':'))) then
      some (.named negated, rest)
    else none
  | _ => none

/-- Reads a set by name behind its bracket. -/
def readNamed : List Char → Option (CharSet × List Char)
  | ':' :: '^' :: cs => readName true cs
  | ':' :: cs => readName false cs
  | _ => none

/-! ### Whole sets -/

/-- What has been read of a set. -/
inductive Progress where
  | nothing
  | dashes
  | members
  deriving DecidableEq, Repr

/-- The set of the members, the last first, combined with the set before a sign. -/
def combine (before : Option CharSet) (members : List CharSet) : CharSet :=
  let last := CharSet.unionOf members.reverse
  match before with
  | none => last
  | some first => .combined first last

/-- The sign of exclusion behind an opening bracket, and what follows. -/
def readExclusion (verbose : Bool) (cs : List Char) : Bool × List Char :=
  match skipGap verbose cs with
  | '^' :: cs => (true, cs)
  | cs => (false, cs)

/-- Reads a set up to its closing bracket, by at most `fuel` steps. -/
def readMembers (verbose : Bool) : Nat → Progress → Option CharSet → List CharSet → List Char →
    Option (CharSet × List Char)
  | 0, _, _, _, _ => none
  | fuel + 1, progress, before, members, cs =>
    let go := readMembers verbose fuel
    match progress, skipGap verbose cs with
    | _, [] => none
    | .nothing, '-' :: cs | .dashes, '-' :: cs =>
      go .dashes before (.literal { char := '-' } :: members) cs
    | .nothing, ']' :: cs => go .members before [.literal { char := ']' }] cs
    | _, ']' :: cs => some (combine before members, cs)
    | _, '&' :: '&' :: cs | _, '-' :: '-' :: cs | _, '~' :: '~' :: cs =>
      go .members (some (combine before members)) [] cs
    | _, '[' :: cs =>
      match readNamed cs with
      | some (s, rest) => go .members before (s :: members) rest
      | none => do
        let (negated, cs) := readExclusion verbose cs
        let (s, rest) ← go .nothing none [] cs
        go .members before (.bracketed negated s :: members) rest
    | _, cs => do
      let (s, rest) ← readRange verbose cs
      go .members before (s :: members) rest

/-- Reads a set behind its opening bracket. -/
def readSet (verbose : Bool) (cs : List Char) : Option (CharSet × List Char) := do
  let (negated, cs) := readExclusion verbose cs
  let (s, rest) ← readMembers verbose (cs.length + 1) .nothing none [] cs
  return (.bracketed negated s, rest)

end FreshTag.Text.Pattern
