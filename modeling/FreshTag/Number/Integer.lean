/-
FreshTag/Number/Integer.lean

Whole numbers written in decimal digits, with an optional sign in front and
nothing around them.  A natural number takes only a plus sign.
-/
import FreshTag.Number.Power

namespace FreshTag.Number

/-- The number that decimal digits stand for; at least one is needed. -/
def digits? (cs : List Char) : Option Nat :=
  if cs ≠ [] ∧ cs.all Char.isDigit = true then some (Nat.ofDigitChars 10 cs 0) else none

/-- A sign in front: whether it is a minus, and what follows. -/
def takeSign : List Char → Bool × List Char
  | '-' :: cs => (true, cs)
  | '+' :: cs => (false, cs)
  | cs => (false, cs)

/-- The whole number of a text from `low` to `high`. -/
def integer? (low high : Int) (s : String) : Option Int := do
  let (negative, cs) := takeSign s.toList
  let n ← digits? cs
  let i : Int := if negative then -(n : Int) else n
  if low ≤ i ∧ i ≤ high then some i else none

/-- The whole number of a text that fits 64 bits with a sign. -/
def integer64? (s : String) : Option Int :=
  integer? (-(twoTo 63 : Int)) ((twoTo 63 : Int) - 1) s

/-- The natural number of a text below `2 ^ 64`, without a minus sign. -/
def natural64? (s : String) : Option Nat := do
  if s.toList.head? = some '-' then none
  let i ← integer? 0 ((twoTo 64 : Int) - 1) s
  some i.toNat

end FreshTag.Number
