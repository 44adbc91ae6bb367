/-
FreshTag/Change/Page.lean

A change of a row is published in pages, because one message is limited in
size.  A page is written `count:number:chunk`, with the count of all pages and
the number of this one, counted from 1, in decimal digits; the chunk may hold
colons of its own.
-/
import FreshTag.Number.Power
import FreshTag.Text.Pieces

namespace FreshTag.Change

/-- A page of a row. -/
structure Page where
  count : Nat
  number : Nat
  chunk : String
  deriving DecidableEq, Repr, Inhabited

/-- Why a text is no page. -/
inductive PageError where
  | missingHeader (shown : String)
  | notNumeric (count number : String)
  | outOfRange (count number : Nat)
  deriving DecidableEq, Repr

/-- The wording of a reason. -/
def PageError.message : PageError → String
  | .missingHeader shown => "page header missing in `" ++ shown ++ "`"
  | .notNumeric count number =>
    "page numbers must be decimal digits, got `" ++ count ++ ":" ++ number ++ "`"
  | .outOfRange count number => s!"page {number} out of range 1..={count}"

namespace Page

/-- How much of a text without header an error shows. -/
def shownLength : Nat := 32

/-- The number that a text of decimal digits stands for, if it has 32 bits. -/
def header? (cs : List Char) : Option Nat :=
  if cs ≠ [] ∧ cs.all Char.isDigit = true then
    let n := Nat.ofDigitChars 10 cs 0
    if n < Number.twoTo 32 then some n else none
  else none

/-- The page that a text denotes. -/
def parse (raw : String) : Except PageError Page :=
  let missing := PageError.missingHeader (String.ofList (raw.toList.take shownLength))
  match Text.cutFirst ':' raw.toList with
  | none => .error missing
  | some (first, rest) =>
    match Text.cutFirst ':' rest with
    | none => .error missing
    | some (second, chunk) =>
      match header? first, header? second with
      | some count, some number =>
        if 1 ≤ number ∧ number ≤ count then .ok { count, number, chunk := String.ofList chunk }
        else .error (.outOfRange count number)
      | _, _ => .error (.notNumeric (String.ofList first) (String.ofList second))

/-- No page follows. -/
def isLast (p : Page) : Bool := p.number == p.count

/-- The row has one page. -/
def isSingle (p : Page) : Bool := p.count == 1

end Page

end FreshTag.Change
