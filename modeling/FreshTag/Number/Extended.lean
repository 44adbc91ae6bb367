/-
FreshTag/Number/Extended.lean

Binary floating-point numbers with infinities and an undefined value, as they
are written in settings: digits with an optional point and exponent, `inf`,
`infinity` or `nan` in any case, and a sign in front.  A decimal is rounded
once, to the nearest number.
-/
import FreshTag.Number.Integer
import FreshTag.Number.Shortest
import FreshTag.Text.Lowercase

namespace FreshTag.Number

/-- A floating-point number, finite or not. -/
inductive Extended where
  | finite (x : Binary64)
  | infinite (negative : Bool)
  | undefined
  deriving DecidableEq, Repr, Inhabited

namespace Extended

/-- The digits before a point, the digits behind it, and the rest. -/
def mantissa (cs : List Char) : List Char × List Char × List Char :=
  let whole := cs.takeWhile Char.isDigit
  match cs.dropWhile Char.isDigit with
  | '.' :: rest => (whole, rest.takeWhile Char.isDigit, rest.dropWhile Char.isDigit)
  | rest => (whole, [], rest)

/-- The exponent of the rest of a number, 0 if there is none. -/
def exponent? : List Char → Option Int
  | [] => some 0
  | c :: cs =>
    if c = 'e' ∨ c = 'E' then
      let (negative, ds) := takeSign cs
      (digits? ds).map fun n => if negative then -(n : Int) else n
    else none

/-- The nearest number to `n · 10 ^ e`. -/
def ofScaled (negative : Bool) (n : Nat) (e : Int) : Extended :=
  let size := e + (Nat.toDigits 10 n).length
  if n = 0 ∨ size < -400 then .finite (.zero negative)
  else if 400 < size then .infinite negative
  else
    let (num, den) := if 0 ≤ e then (n * tenTo e.toNat, 1) else (n, tenTo (-e).toNat)
    match Binary64.ofRatio? negative num den with
    | some x => .finite x
    | none => .infinite negative

/-- The number of a text in digits. -/
def ofDecimal? (negative : Bool) (cs : List Char) : Option Extended := do
  let (whole, fraction, rest) := mantissa cs
  let n ← digits? (whole ++ fraction)
  let e ← exponent? rest
  some (ofScaled negative n (e - fraction.length))

/-- The number of a text. -/
def ofText? (s : String) : Option Extended :=
  let (negative, cs) := takeSign s.toList
  match String.ofList (cs.map Char.toLower) with
  | "inf" => some (.infinite negative)
  | "infinity" => some (.infinite negative)
  | "nan" => some .undefined
  | _ => ofDecimal? negative cs

/-- The shortest text of a number, without an exponent. -/
def text : Extended → String
  | .finite x => String.ofList x.positionalText
  | .infinite negative => if negative then "-inf" else "inf"
  | .undefined => "NaN"

/-- The number is a zero. -/
def isZero : Extended → Bool
  | .finite x => x.isZero
  | _ => false

/-- The nearest whole number from 0 to `limit`, a half going up; 0 for the undefined value. -/
def toNat (limit : Nat) : Extended → Nat
  | .finite x =>
    if x.negative then 0
    else
      let (num, den) := x.ratio
      min limit (roundDiv .up num den)
  | .infinite negative => if negative then 0 else limit
  | .undefined => 0

end Extended

end FreshTag.Number
