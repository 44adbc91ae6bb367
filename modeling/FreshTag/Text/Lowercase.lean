/-
FreshTag/Text/Lowercase.lean

Lower-casing a text.  Two characters need more than the table of
`Text/CaseTable`: `İ` becomes `i` and a combining dot, and `Σ` becomes `ς` at
the end of a word and `σ` elsewhere.  A word ends at a position when, looking
through case-ignorable characters, a cased one precedes it and none follows.

On ASCII texts this is character-wise `Char.toLower` (`lowerChars_ascii`).
-/
import FreshTag.Text.CaseTable

namespace FreshTag.Text

/-- The first character that is not case-ignorable is cased. -/
def startsCased (cs : List Char) : Bool :=
  match cs.dropWhile isCaseIgnorable with
  | [] => false
  | c :: _ => isCased c

/-- `before` holds the characters already passed, the nearest first. -/
def lowerFrom (before : List Char) : List Char → List Char
  | [] => []
  | c :: cs =>
    let low :=
      if c = 'Σ' then if startsCased before && !startsCased cs then ['ς'] else ['σ']
      else if c = 'İ' then ['i', '\u0307']
      else [lowerChar c]
    low ++ lowerFrom (c :: before) cs

/-- The lower-case form of a list of characters. -/
def lowerChars (cs : List Char) : List Char :=
  lowerFrom [] cs

/-- The lower-case form of a text. -/
def lower (s : String) : String :=
  String.ofList (lowerChars s.toList)

/-- Lower-cases the letters A to Z only. -/
def lowerAscii (s : String) : String :=
  String.ofList (s.toList.map Char.toLower)

theorem lowerFrom_ascii (before cs : List Char) (h : ∀ c ∈ cs, c.toNat < 0x80) :
    lowerFrom before cs = cs.map Char.toLower := by
  induction cs generalizing before with
  | nil => rfl
  | cons c cs ih =>
    have hc : c.toNat < 0x80 := h c (by simp)
    have h₁ : c ≠ 'Σ' := by rintro rfl; exact absurd hc (by decide)
    have h₂ : c ≠ 'İ' := by rintro rfl; exact absurd hc (by decide)
    simp [lowerFrom, h₁, h₂, lowerChar_ascii hc, ih (c :: before) fun d hd => h d (by simp [hd])]

theorem lowerChars_ascii {cs : List Char} (h : ∀ c ∈ cs, c.toNat < 0x80) :
    lowerChars cs = cs.map Char.toLower :=
  lowerFrom_ascii [] cs h

end FreshTag.Text
