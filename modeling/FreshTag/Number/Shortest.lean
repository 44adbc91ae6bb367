/-
FreshTag/Number/Shortest.lean

The shortest decimal that names a binary floating-point number.  Around the
number lies an interval of reals that round to it, its ends included exactly
if the mantissa is even.  For one digit, two digits and so on the two
neighbours on that decimal grid are tried; the first grid with a neighbour
inside the interval wins, and of two such neighbours the nearer one.

The digits are arranged in one of two ways.  `scientificText` writes numbers
below `10 ^ 16` and not below `10 ^ -5` positionally, always with a point, and
the others with an exponent.  `positionalText` never writes an exponent, and a
point only before a fraction.
-/
import FreshTag.Number.Binary64

namespace FreshTag.Number

/-- A decimal `digits · 10 ^ exponent`. -/
structure Decimal where
  digits : Nat
  exponent : Int
  deriving DecidableEq, Repr

namespace Decimal

/-- The same value with no zero at the end of the digits, by at most `fuel` steps. -/
def stripZeros : Nat → Decimal → Decimal
  | 0, d => d
  | fuel + 1, d =>
    if d.digits ≠ 0 ∧ d.digits % 10 = 0 then stripZeros fuel ⟨d.digits / 10, d.exponent + 1⟩ else d

end Decimal

namespace Binary64

/-- Numerators of the interval that rounds to the number, over a common denominator:
low end, number, high end. -/
def interval (x : Binary64) : Nat × Nat × Nat × Nat :=
  let narrow := x.mantissa = twoTo 52 ∧ leastExponent < x.exponent
  let low := if narrow then 4 * x.mantissa - 1 else 4 * x.mantissa - 2
  let mid := 4 * x.mantissa
  let high := 4 * x.mantissa + 2
  let e := x.exponent - 2
  if 0 ≤ e then
    let p := twoTo e.toNat
    (low * p, mid * p, high * p, 1)
  else (low, mid, high, twoTo (-e).toNat)

/-- The exponent `k` with `10 ^ k ≤ num / den < 10 ^ (k + 1)`. -/
def decimalExponent (num den : Nat) : Int :=
  if den ≤ num then ((Nat.toDigits 10 (num / den)).length : Int) - 1
  else
    let c := (den + num - 1) / num
    if c ≤ 1 then 0 else -((Nat.toDigits 10 (c - 1)).length : Int)

/-- Numerator and denominator of `num / den / 10 ^ k`. -/
def tenShifted (num den : Nat) (k : Int) : Nat × Nat :=
  if 0 ≤ k then (num, den * tenTo k.toNat) else (num * tenTo (-k).toNat, den)

/-- The grid point of unit `10 ^ k` nearest to the number, if one lies in the interval. -/
def onGrid? (tie : Tie) (x : Binary64) (k : Int) : Option Decimal :=
  let (low, mid, high, den) := x.interval
  let even := x.mantissa % 2 = 0
  let (a, b) := tenShifted mid den k
  let (l, _) := tenShifted low den k
  let (h, _) := tenShifted high den k
  let inside (d : Nat) : Bool :=
    if even then l ≤ d * b && d * b ≤ h else l < d * b && d * b < h
  let down := a / b
  let near := roundDiv tie a b
  if inside near then some ⟨near, k⟩
  else if inside down then some ⟨down, k⟩
  else if inside (down + 1) then some ⟨down + 1, k⟩
  else none

/-- The first hit on the grids of `n`, `n + 1`, … digits; `top` is the decimal exponent. -/
def firstHit (tie : Tie) (x : Binary64) (top : Int) : List Nat → Option Decimal
  | [] => none
  | n :: ns =>
    match onGrid? tie x (top - n) with
    | some d => some d
    | none => firstHit tie x top ns

/-- The shortest decimal of the magnitude. -/
def shortest (tie : Tie) (x : Binary64) : Decimal :=
  if x.mantissa = 0 then ⟨0, 0⟩
  else
    let (num, den) := x.ratio
    match firstHit tie x (decimalExponent num den) (List.range 17) with
    | some d => Decimal.stripZeros 17 d
    | none => ⟨0, 0⟩

/-- The sign in front of a number. -/
def signText (x : Binary64) : List Char :=
  if x.negative then ['-'] else []

/-- Digits with a point after the first `k` of them. -/
def pointed (ds : List Char) (k : Nat) : List Char :=
  ds.take k ++ '.' :: ds.drop k

/-- The shortest text with a point or an exponent. -/
def scientificText (x : Binary64) : List Char :=
  let d := x.shortest .toEven
  let ds := Nat.toDigits 10 d.digits
  let point : Int := d.exponent + ds.length
  x.signText ++
    if x.mantissa = 0 then ['0', '.', '0']
    else if 0 ≤ d.exponent ∧ point ≤ 16 then
      ds ++ List.replicate d.exponent.toNat '0' ++ ['.', '0']
    else if 0 < point ∧ point ≤ 16 then pointed ds point.toNat
    else if -5 < point ∧ point ≤ 0 then
      ['0', '.'] ++ List.replicate (-point).toNat '0' ++ ds
    else
      let e := point - 1
      (if ds.length = 1 then ds else pointed ds 1) ++
        'e' :: (if e < 0 then '-' else '+') :: Nat.toDigits 10 e.natAbs

/-- The shortest text without an exponent; a whole number has no point. -/
def positionalText (x : Binary64) : List Char :=
  let d := x.shortest .up
  let ds := Nat.toDigits 10 d.digits
  let point : Int := d.exponent + ds.length
  x.signText ++
    if 0 ≤ d.exponent then ds ++ List.replicate d.exponent.toNat '0'
    else if 0 < point then pointed ds point.toNat
    else ['0', '.'] ++ List.replicate (-point).toNat '0' ++ ds

end Binary64

end FreshTag.Number
