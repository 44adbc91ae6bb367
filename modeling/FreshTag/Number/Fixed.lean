/-
FreshTag/Number/Fixed.lean

Numbers with six decimal places.  A floating-point number is written from its
exact value, a half going to the even neighbour, and keeps its sign even when
all its places are zero.  A whole number gets six zeros, so whole numbers
never lose a digit (`wholeText`).
-/
import FreshTag.Number.Binary64

namespace FreshTag.Number

/-- Places behind the point. -/
def places : Nat := 6

/-- A count of millionths as digits with a point. -/
def millionthsText (n : Nat) : List Char :=
  let fraction := Nat.toDigits 10 (n % tenTo places)
  Nat.toDigits 10 (n / tenTo places) ++
    '.' :: List.replicate (places - fraction.length) '0' ++ fraction

/-- A whole number with six places. -/
def wholeText (n : Nat) : List Char :=
  Nat.toDigits 10 n ++ '.' :: List.replicate places '0'

/-- A floating-point number with six places. -/
def Binary64.fixedText (x : Binary64) : List Char :=
  let (num, den) := x.ratio
  (if x.negative then ['-'] else []) ++
    millionthsText (roundDiv .toEven (num * tenTo places) den)

end FreshTag.Number
