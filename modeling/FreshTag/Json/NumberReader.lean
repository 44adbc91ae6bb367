/-
FreshTag/Json/NumberReader.lean

Reading a JSON number.  The digits are gathered into a significand of 64 bits.
A whole number that fits 64 bits is kept exactly.  Otherwise digits that no
longer fit are not looked at: of the integer part each of them raises the
decimal exponent by one, of the fraction they are dropped.  The significand is
rounded once to a floating-point number and then multiplied or divided by a
rounded power of ten.

`readNumber` works after the minus sign.  Every reader returns what follows
the number, and what follows never starts with a digit.
-/
import FreshTag.Json.Error

namespace FreshTag.Json

open FreshTag.Number

/-- The value of a decimal digit. -/
def digit? (c : Char) : Option Nat :=
  if c.isDigit then some (c.toNat - 0x30) else none

/-- Drops the digits in front and counts them. -/
def skipDigits : List Char → Nat × List Char
  | [] => (0, [])
  | c :: cs =>
    if c.isDigit then
      let (n, rest) := skipDigits cs
      (n + 1, rest)
    else (0, c :: cs)

/-- Digits taken into a significand. -/
structure Gathered where
  significand : Nat
  count : Nat
  rest : List Char

/-- Appends the digits in front to a significand as long as it fits 64 bits. -/
def gather (significand count : Nat) : List Char → Gathered
  | [] => ⟨significand, count, []⟩
  | c :: cs =>
    match digit? c with
    | some d =>
      if significand * 10 + d < twoTo 64 then gather (significand * 10 + d) (count + 1) cs
      else ⟨significand, count, c :: cs⟩
    | none => ⟨significand, count, c :: cs⟩

/-- The text starts with a digit. -/
def startsWithDigit (cs : List Char) : Bool :=
  (cs.head?.map Char.isDigit).getD false

/-- `x / 10 ^ k`, dividing by `1e308` first where `k` is greater.  After two such divisions
nothing is left of a number below `2 ^ 64`. -/
def scaleDown (x : Binary64) (k : Nat) : Binary64 :=
  let divided (y : Binary64) (j : Nat) := (y.div? (Binary64.tenPow j)).getD (Binary64.zero false)
  if k ≤ 308 then divided x k
  else if k ≤ 616 then divided (divided x 308) (k - 308)
  else Binary64.zero false

/-- `significand · 10 ^ k` with a sign. -/
def scale (positive : Bool) (significand : Nat) (k : Int) : Except Error Binary64 :=
  let x := Binary64.ofNat significand
  let signed (y : Binary64) := if positive then y else y.neg
  if k < 0 then .ok (signed (scaleDown x (-k).toNat))
  else if x.isZero then .ok (signed x)
  else if 308 < k then .error .numberOutOfRange
  else match x.mul? (Binary64.tenPow k.toNat) with
    | some y => .ok (signed y)
    | none => .error .numberOutOfRange

/-- Appends the digits in front to an exponent; none if it grows beyond 31 bits. -/
def gatherExponent (e : Nat) : List Char → Option Nat × List Char
  | [] => (some e, [])
  | c :: cs =>
    match digit? c with
    | some d =>
      if e * 10 + d < twoTo 31 then gatherExponent (e * 10 + d) cs else (none, cs)
    | none => (some e, c :: cs)

/-- Reads an exponent behind its `e`; `k` is the exponent of the significand so far. -/
def readExponent (positive : Bool) (significand : Nat) (k : Int) (cs : List Char) :
    Except Error (Binary64 × List Char) :=
  let (up, cs) := match cs with
    | '+' :: rest => (true, rest)
    | '-' :: rest => (false, rest)
    | _ => (true, cs)
  match cs with
  | [] => .error .eofValue
  | c :: rest =>
    match digit? c with
    | none => .error .invalidNumber
    | some d =>
      match gatherExponent d rest with
      | (some e, rest) => do
        let x ← scale positive significand (if up then k + e else k - e)
        .ok (x, rest)
      | (none, rest) =>
        if up && significand != 0 then .error .numberOutOfRange
        else .ok (Binary64.zero !positive, (skipDigits rest).2)

/-- Finishes a floating-point number where an exponent may stand. -/
def readScale (positive : Bool) (significand : Nat) (k : Int) (cs : List Char) :
    Except Error (Binary64 × List Char) :=
  match cs with
  | 'e' :: rest => readExponent positive significand k rest
  | 'E' :: rest => readExponent positive significand k rest
  | _ => do
    let x ← scale positive significand k
    .ok (x, cs)

/-- Reads a fraction behind its point. -/
def readFraction (positive : Bool) (significand : Nat) (k : Int) (cs : List Char) :
    Except Error (Binary64 × List Char) :=
  let g := gather significand 0 cs
  if startsWithDigit g.rest then
    readScale positive g.significand (k - g.count) (skipDigits g.rest).2
  else if g.count = 0 then
    .error (if g.rest.isEmpty then .eofValue else .invalidNumber)
  else readScale positive g.significand (k - g.count) g.rest

/-- Finishes a number behind an integer part whose last `k` digits did not fit. -/
def readLong (positive : Bool) (significand : Nat) (k : Nat) (cs : List Char) :
    Except Error (Binary64 × List Char) :=
  match cs with
  | '.' :: rest => readFraction positive significand k rest
  | _ => readScale positive significand k cs

/-- A whole number; zero with a minus sign and what is below `-2 ^ 63` are floating-point. -/
def wholeNumber (positive : Bool) (n : Nat) : Number :=
  if positive then .natural n
  else if 1 ≤ n ∧ n ≤ twoTo 63 then .negative n
  else .float (Binary64.ofNat n).neg

/-- Finishes a number behind an integer part that fits. -/
def readRest (positive : Bool) (significand : Nat) (cs : List Char) :
    Except Error (Number × List Char) :=
  let float := fun (x, rest) => (Number.float x, rest)
  match cs with
  | '.' :: rest => float <$> readFraction positive significand 0 rest
  | 'e' :: rest => float <$> readExponent positive significand 0 rest
  | 'E' :: rest => float <$> readExponent positive significand 0 rest
  | _ => .ok (wholeNumber positive significand, cs)

/-- Reads a number behind its minus sign, if it has one. -/
def readNumber (positive : Bool) (cs : List Char) : Except Error (Number × List Char) :=
  match cs with
  | [] => .error .eofValue
  | '0' :: rest =>
    if startsWithDigit rest then .error .invalidNumber else readRest positive 0 rest
  | c :: rest =>
    match digit? c with
    | none => .error .invalidNumber
    | some d =>
      let g := gather d 0 rest
      if startsWithDigit g.rest then
        let (k, rest) := skipDigits g.rest
        (fun (x, rest) => (Number.float x, rest)) <$> readLong positive g.significand k rest
      else readRest positive g.significand g.rest

/-- The number that is the whole text, with no space around it. -/
def Number.ofText? (s : String) : Option Number :=
  let read := match s.toList with
    | '-' :: cs => readNumber false cs
    | cs => readNumber true cs
  match read with
  | .ok (n, []) => some n
  | _ => none

/-! ### Skipping a number -/

/-- Skips the digits of an exponent, which are at least one. -/
def skipExponent (cs : List Char) : Except Error (List Char) :=
  let cs := match cs with
    | '+' :: rest => rest
    | '-' :: rest => rest
    | _ => cs
  if startsWithDigit cs then .ok (skipDigits cs).2 else .error .invalidNumber

/-- Skips an exponent if one stands in front. -/
def skipScale (cs : List Char) : Except Error (List Char) :=
  match cs with
  | 'e' :: rest => skipExponent rest
  | 'E' :: rest => skipExponent rest
  | _ => .ok cs

/-- Skips a number behind its minus sign, of any size. -/
def skipNumber (cs : List Char) : Except Error (List Char) := do
  let rest ← match cs with
    | '0' :: rest => if startsWithDigit rest then .error .invalidNumber else .ok rest
    | _ => if startsWithDigit cs then .ok (skipDigits cs).2 else .error .invalidNumber
  match rest with
  | '.' :: rest =>
    if startsWithDigit rest then skipScale (skipDigits rest).2 else .error .invalidNumber
  | _ => skipScale rest

end FreshTag.Json
