/-
FreshTag/Text/Pattern/Escape.lean

What a backslash makes of the character behind it.  A sign stands for itself, a
letter for a control character, a family of characters or a place, and a number
in base 16 for the character or byte with that number.  Everything else is
wrong, the categories of characters too, which the matcher does not know.

In a verbose pattern there may be gaps, that is, space and comments, also
between the digits of a number.
-/
import FreshTag.Text.Hexadecimal
import FreshTag.Text.Pattern.Basic
import FreshTag.Text.Space

namespace FreshTag.Text.Pattern

/-! ### Gaps -/

/-- Passes over space and over comments, which end with their line. -/
def dropGap : Bool → List Char → List Char
  | _, [] => []
  | true, c :: cs => dropGap (c != '\n') cs
  | false, c :: cs =>
    if isSpace c then dropGap false cs
    else if c == '#' then dropGap true cs
    else c :: cs

/-- Passes over a gap, if the pattern is verbose. -/
def skipGap (verbose : Bool) (cs : List Char) : List Char :=
  if verbose then dropGap false cs else cs

/-! ### Escapes -/

/-- What a backslash and the characters behind it stand for. -/
inductive Escape where
  | literal (c : Literal)
  | family (negated : Bool)
  | textEdge
  | wordEdge
  deriving DecidableEq, Repr

/-- Reads so many digits, behind those that make up `n`. -/
def readDigits (verbose : Bool) : Nat → Nat → List Char → Option (Nat × List Char)
  | 0, n, cs => some (n, cs)
  | digits + 1, n, cs =>
    match skipGap verbose cs with
    | [] => none
    | c :: cs => (hexValue? c).bind fun d => readDigits verbose digits (16 * n + d) cs

/-- Reads the number of a character, or of a byte if it has two digits. -/
def readNumber (verbose : Bool) (digits : Nat) (cs : List Char) : Option (Escape × List Char) := do
  let (n, rest) ← readDigits verbose digits 0 cs
  if n.isValidChar then
    some (.literal { char := Char.ofNat n, isByte := digits = 2 }, rest)
  else none

/-- The letters that stand for a control character. -/
def controlLetters : List (Char × Char) :=
  [('a', '\x07'), ('f', '\x0c'), ('n', '\n'), ('r', '\r'), ('t', '\t'), ('v', '\x0b')]

/-- The sign can be made to stand for itself. -/
def isSign (c : Char) : Bool :=
  c.toNat < 0x80 && !c.isAlphanum && c != '<' && c != '>'

/-- Reads what stands behind a backslash. -/
def readEscape (verbose : Bool) : List Char → Option (Escape × List Char)
  | [] => none
  | 'x' :: cs => readNumber verbose 2 cs
  | 'u' :: cs => readNumber verbose 4 cs
  | 'U' :: cs => readNumber verbose 8 cs
  | 'd' :: cs | 's' :: cs | 'w' :: cs => some (.family false, cs)
  | 'D' :: cs | 'S' :: cs | 'W' :: cs => some (.family true, cs)
  | 'A' :: cs | 'z' :: cs => some (.textEdge, cs)
  | 'b' :: cs | 'B' :: cs | '<' :: cs | '>' :: cs => some (.wordEdge, cs)
  | c :: cs =>
    if isSign c then some (.literal { char := c }, cs)
    else (controlLetters.lookup c).map fun control => (.literal { char := control }, cs)

end FreshTag.Text.Pattern
