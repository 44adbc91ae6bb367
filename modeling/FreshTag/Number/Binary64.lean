/-
FreshTag/Number/Binary64.lean

Finite binary floating-point numbers of 64 bits, as exact values
`± mantissa · 2 ^ exponent`.  `ofRatio?` rounds an exact quotient of natural
numbers to the nearest of them, a tie going to the even mantissa; it has no
answer where the nearest one would be infinite.  Two kinds of number:

* normal numbers have `2 ^ 52 ≤ mantissa < 2 ^ 53`,
* the others have the least exponent, `-1074`.

Products and quotients are rounded from the exact result, so each operation
rounds once.
-/
import FreshTag.Number.Power
import FreshTag.Number.Rounding

namespace FreshTag.Number

/-- A finite binary floating-point number. -/
structure Binary64 where
  negative : Bool
  mantissa : Nat
  exponent : Int
  deriving DecidableEq, Repr, Inhabited

namespace Binary64

/-- Least exponent of a mantissa. -/
def leastExponent : Int := -1074

/-- Greatest exponent of a mantissa. -/
def greatestExponent : Int := 971

/-- Zero with a sign. -/
def zero (negative : Bool) : Binary64 := ⟨negative, 0, leastExponent⟩

/-- The number is a zero of either sign. -/
def isZero (x : Binary64) : Bool := x.mantissa == 0

/-- The number with the opposite sign. -/
def neg (x : Binary64) : Binary64 := { x with negative := !x.negative }

/-- Numerator and denominator of `num / den / 2 ^ e`. -/
def shifted (num den : Nat) (e : Int) : Nat × Nat :=
  if 0 ≤ e then (num, den * twoTo e.toNat) else (num * twoTo (-e).toNat, den)

/-- The numerator and denominator of the magnitude. -/
def ratio (x : Binary64) : Nat × Nat :=
  if 0 ≤ x.exponent then (x.mantissa * twoTo x.exponent.toNat, 1)
  else (x.mantissa, twoTo (-x.exponent).toNat)

/-- The exponent at which the mantissa of `num / den` has 53 bits, or the least one. -/
def exponentFor (num den : Nat) : Int :=
  let low : Int := (num.log2 : Int) - den.log2 - 53
  let (a, b) := shifted num den low
  max leastExponent (if twoTo 53 ≤ a / b then low + 1 else low)

/-- The nearest number to `num / den`, or none if that is beyond the greatest one. -/
def ofRatio? (negative : Bool) (num den : Nat) : Option Binary64 :=
  if num = 0 then some (zero negative)
  else
    let e := exponentFor num den
    let (a, b) := shifted num den e
    let m := roundDiv .toEven a b
    let (m, e) := if m = twoTo 53 then (twoTo 52, e + 1) else (m, e)
    if greatestExponent < e then none else some ⟨negative, m, e⟩

/-- The nearest number to a natural number below `2 ^ 64`. -/
def ofNat (n : Nat) : Binary64 :=
  (ofRatio? false n 1).getD (zero false)

/-- The nearest number to `10 ^ k`, for `k ≤ 308`. -/
def tenPow (k : Nat) : Binary64 :=
  ofNat (tenTo k)

/-- The rounded product, if it is finite. -/
def mul? (x y : Binary64) : Option Binary64 :=
  let (a, b) := x.ratio
  let (c, d) := y.ratio
  ofRatio? (x.negative != y.negative) (a * c) (b * d)

/-- The rounded quotient, if it is finite; the divisor is not zero. -/
def div? (x y : Binary64) : Option Binary64 :=
  let (a, b) := x.ratio
  let (c, d) := y.ratio
  ofRatio? (x.negative != y.negative) (a * d) (b * c)

end Binary64

end FreshTag.Number
