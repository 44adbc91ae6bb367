/-
FreshTag/Text/Pattern/Basic.lean

Patterns, that is, regular expressions, as far as it matters whether a matcher
takes them: of a character it matters how it is written, of a family of
characters only whether it is meant or all others, and of a repetition not how
often.

A pattern nests: a repetition, a group, a set, a choice and a sequence are one
deeper than what they hold.
-/

namespace FreshTag.Text

namespace Pattern

/-- A character that stands for itself. -/
structure Literal where
  char : Char
  /-- it is written as the number of a byte -/
  isByte : Bool := false
  deriving DecidableEq, Repr, Inhabited

/-- A set of characters. -/
inductive CharSet where
  | empty
  | literal (c : Literal)
  | range (first last : Literal)
  /-- characters of ASCII that have a name together, or all others -/
  | named (negated : Bool)
  /-- digits, spaces or the characters of words, or all others -/
  | family (negated : Bool)
  /-- a set in brackets, or all characters outside it -/
  | bracketed (negated : Bool) (s : CharSet)
  | union (sets : List CharSet)
  /-- what two sets have in common, or what only one of them has -/
  | combined (first second : CharSet)
  deriving Repr, Inhabited

/-- Ways to match that are switched on or off, or left as they are. -/
structure Flags where
  /-- letters match in either case -/
  fold : Option Bool := none
  /-- characters are those of Unicode, and not bytes -/
  unicode : Option Bool := none
  /-- space and comments in the pattern stand for nothing -/
  verbose : Option Bool := none
  deriving DecidableEq, Repr, Inhabited

end Pattern

open Pattern (Literal CharSet Flags) in
/-- A pattern. -/
inductive Pattern where
  | empty
  /-- ways to match from here to the end of the group -/
  | flags (f : Flags)
  | literal (c : Literal)
  /-- any character -/
  | dot
  /-- one character out of a set -/
  | chars (s : CharSet)
  /-- an end of the text or of a line -/
  | textEdge
  /-- an end of a word, or a place that is none -/
  | wordEdge
  | repeated (p : Pattern)
  | group (name : Option String) (f : Flags) (p : Pattern)
  | sequence (ps : List Pattern)
  | choice (ps : List Pattern)
  deriving Repr, Inhabited

namespace Pattern

/-! ### Lists of one kind -/

/-- The characters of any of the sets. -/
def CharSet.unionOf : List CharSet → CharSet
  | [] => .empty
  | [s] => s
  | sets => .union sets

/-- Patterns one after the other. -/
def sequenceOf : List Pattern → Pattern
  | [] => .empty
  | [p] => p
  | ps => .sequence ps

/-- One of several patterns. -/
def choiceOf : List Pattern → Pattern
  | [] => .empty
  | [p] => p
  | ps => .choice ps

/-! ### Nesting -/

mutual
/-- How deep a set nests. -/
def CharSet.depth : CharSet → Nat
  | .bracketed _ s => s.depth + 1
  | .union sets => CharSet.depthOfAll sets + 1
  | .combined first second => max first.depth second.depth + 1
  | .empty | .literal _ | .range .. | .named _ | .family _ => 0

/-- How deep the deepest of several sets nests. -/
def CharSet.depthOfAll : List CharSet → Nat
  | [] => 0
  | s :: sets => max s.depth (CharSet.depthOfAll sets)
end

mutual
/-- How deep a pattern nests. -/
def depth : Pattern → Nat
  | .chars s => s.depth
  | .repeated p | .group _ _ p => p.depth + 1
  | .sequence ps | .choice ps => depthOfAll ps + 1
  | .empty | .flags _ | .literal _ | .dot | .textEdge | .wordEdge => 0

/-- How deep the deepest of several patterns nests. -/
def depthOfAll : List Pattern → Nat
  | [] => 0
  | p :: ps => max p.depth (depthOfAll ps)
end

/-! ### Names of groups -/

mutual
/-- The names of the groups, from left to right. -/
def names : Pattern → List String
  | .repeated p => p.names
  | .group name _ p => name.toList ++ p.names
  | .sequence ps | .choice ps => namesOfAll ps
  | .empty | .flags _ | .literal _ | .dot | .chars _ | .textEdge | .wordEdge => []

/-- The names of the groups of several patterns. -/
def namesOfAll : List Pattern → List String
  | [] => []
  | p :: ps => p.names ++ namesOfAll ps
end

end Pattern

end FreshTag.Text
