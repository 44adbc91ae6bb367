/-
FreshTag/Text/Space.lean

White space at the two ends of a text.  A character is space when it has the
Unicode property `White_Space`; headers, etags, filter entries and settings
are all trimmed by this one rule.

Trimming works on the list of characters: `trimStart` drops the longest run
of spaces in front, `trimEnd` the longest run behind, and `trim` does both.
A trimmed text neither starts nor ends with a space (`head?_trimStart`).
-/

namespace FreshTag.Text

/-- The Unicode property `White_Space`. -/
def isSpace (c : Char) : Bool :=
  let n := c.toNat
  (9 ≤ n && n ≤ 13) || n == 0x20 || n == 0x85 || n == 0xA0 || n == 0x1680 ||
    (0x2000 ≤ n && n ≤ 0x200A) || n == 0x2028 || n == 0x2029 || n == 0x202F ||
    n == 0x205F || n == 0x3000

/-- Drops the spaces in front. -/
def trimStart (cs : List Char) : List Char :=
  cs.dropWhile isSpace

/-- Drops the spaces behind. -/
def trimEnd (cs : List Char) : List Char :=
  (trimStart cs.reverse).reverse

/-- Drops the spaces on both sides. -/
def trimChars (cs : List Char) : List Char :=
  trimEnd (trimStart cs)

/-- Drops the spaces on both sides of a text. -/
def trim (s : String) : String :=
  String.ofList (trimChars s.toList)

/-- The text without surrounding space, if anything is left of it. -/
def nonBlank? (s : String) : Option String :=
  if trim s = "" then none else some (trim s)

theorem head?_trimStart {cs : List Char} {c : Char} (h : (trimStart cs).head? = some c) :
    isSpace c = false := by
  induction cs with
  | nil => simp [trimStart] at h
  | cons d ds ih =>
    by_cases hd : isSpace d = true
    · exact ih (by simpa [trimStart, List.dropWhile_cons, hd] using h)
    · have : d = c := by simpa [trimStart, List.dropWhile_cons, hd] using h
      simpa [← this] using hd

end FreshTag.Text
