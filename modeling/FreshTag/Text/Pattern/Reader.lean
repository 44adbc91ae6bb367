/-
FreshTag/Text/Pattern/Reader.lean

Reading a pattern.  Groups close, a repetition sign has something before it to
repeat, and ways to match are named once each.  Counted repetitions, which need
braces, and looking ahead or back are left out.  Every character without a
meaning stands for itself.

A pattern is verbose from the place that says so to the end of the group.
-/
import FreshTag.Text.AlphanumericTable
import FreshTag.Text.Pattern.Brackets

namespace FreshTag.Text.Pattern

/-! ### Heads of groups -/

/-- The letters of the ways to match. -/
def flagLetters : List Char := ['i', 'm', 's', 'R', 'U', 'u', 'x']

/-- Ways to match that are switched on, and behind a dash off, none of them twice. -/
def areFlags (cs : List Char) : Bool :=
  cs.all (fun c => c == '-' || flagLetters.contains c) && decide cs.Nodup &&
    cs.getLast? != some '-'

/-- The ways to match of letters. -/
def Flags.ofLetters (cs : List Char) : Flags :=
  let setting (letter : Char) : Option Bool :=
    if cs.contains letter then some ((cs.takeWhile (· != '-')).contains letter) else none
  { fold := setting 'i', unicode := setting 'u', verbose := setting 'x' }

/-- The name of a group. -/
def isGroupName : List Char → Bool
  | [] => false
  | c :: cs =>
    (c == '_' || isAlphabetic c) &&
      cs.all fun c => isAlphanumeric c || ['_', '.', '[', ']'].contains c

/-- What an opening bracket begins. -/
inductive Head where
  | group (name : Option String) (f : Flags)
  /-- no group, but ways to match for the rest of the one around it -/
  | flags (f : Flags)
  deriving DecidableEq, Repr

/-- Reads the name of a group and the sign behind it. -/
def readGroupName (cs : List Char) : Option (Head × List Char) :=
  let name := cs.takeWhile (· != '>')
  match cs.dropWhile (· != '>') with
  | _ :: rest =>
    if isGroupName name then some (.group (some (String.ofList name)) {}, rest) else none
  | [] => none

/-- Reads ways to match and the sign behind them. -/
def readFlags (cs : List Char) : Option (Head × List Char) :=
  let isLetter (c : Char) := c != ':' && c != ')'
  let letters := cs.takeWhile isLetter
  if !areFlags letters then none
  else match cs.dropWhile isLetter with
    | ':' :: rest => some (.group none (.ofLetters letters), rest)
    | ')' :: rest => if letters = [] then none else some (.flags (.ofLetters letters), rest)
    | _ => none

/-- Reads what stands behind an opening bracket. -/
def readHead (verbose : Bool) (cs : List Char) : Option (Head × List Char) :=
  match skipGap verbose cs with
  | '?' :: 'P' :: '<' :: cs | '?' :: '<' :: cs => readGroupName cs
  | '?' :: cs => readFlags cs
  | cs => some (.group none {}, cs)

/-! ### Whole patterns -/

/-- What an escape is in a pattern. -/
def ofEscape : Escape → Pattern
  | .literal c => .literal c
  | .family negated => .chars (.family negated)
  | .textEdge => .textEdge
  | .wordEdge => .wordEdge

/-- The pattern of a character that stands outside brackets. -/
def ofChar (c : Char) : Pattern :=
  if c == '.' then .dot
  else if c == '^' || c == '$' then .textEdge
  else .literal { char := c }

/-- Repeats the last of the items, the first in the list. -/
def repeatLast : List Pattern → Option (List Pattern)
  | [] | .flags _ :: _ => none
  | p :: items => some (.repeated p :: items)

/-- Passes over the sign that a repetition is to be short. -/
def dropLazy : List Char → List Char
  | '?' :: cs => cs
  | cs => cs

/-- The pattern of the items of the last branch and of the branches before it, each list with the
last first. -/
def close (branches items : List Pattern) : Pattern :=
  choiceOf (sequenceOf items.reverse :: branches).reverse

/-- Reads up to the end of the group or of the text, by at most `fuel` steps. -/
def readItems : Nat → Bool → List Pattern → List Pattern → List Char →
    Option (Pattern × List Char)
  | 0, _, _, _, _ => none
  | fuel + 1, verbose, branches, items, cs =>
    match skipGap verbose cs with
    | [] => some (close branches items, [])
    | ')' :: cs => some (close branches items, ')' :: cs)
    | '|' :: cs => readItems fuel verbose (sequenceOf items.reverse :: branches) [] cs
    | '*' :: cs | '+' :: cs | '?' :: cs => do
      readItems fuel verbose branches (← repeatLast items) (dropLazy cs)
    | '{' :: _ => none
    | '(' :: cs => do
      match ← readHead verbose cs with
      | (.flags f, rest) =>
        readItems fuel (f.verbose.getD verbose) branches (.flags f :: items) rest
      | (.group name f, rest) =>
        match ← readItems fuel (f.verbose.getD verbose) [] [] rest with
        | (p, ')' :: rest) => readItems fuel verbose branches (.group name f p :: items) rest
        | _ => none
    | '[' :: cs => do
      let (s, rest) ← readSet verbose cs
      readItems fuel verbose branches (.chars s :: items) rest
    | '\\' :: cs => do
      let (e, rest) ← readEscape verbose cs
      readItems fuel verbose branches (ofEscape e :: items) rest
    | c :: cs => readItems fuel verbose branches (ofChar c :: items) cs

/-- The pattern that a text denotes. -/
def ofChars? (cs : List Char) : Option Pattern :=
  match readItems (cs.length + 1) false [] [] cs with
  | some (p, []) => some p
  | _ => none

end FreshTag.Text.Pattern
