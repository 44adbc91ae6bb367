/-
FreshTag/Text/Bytes.lean

Cutting a text at places that are counted in bytes of UTF-8.  A cut is only
possible between characters.  Where it is, the two sides are what stands before
the place and behind it (`takeBytes?_append`, `dropBytes?_append`).
-/

namespace FreshTag.Text

/-- The number of bytes of some characters. -/
def byteLength : List Char → Nat
  | [] => 0
  | c :: cs => c.utf8Size + byteLength cs

/-- The first `n` bytes. -/
def takeBytes? : Nat → List Char → Option (List Char)
  | 0, _ => some []
  | _ + 1, [] => none
  | n + 1, c :: cs =>
    if c.utf8Size ≤ n + 1 then (takeBytes? (n + 1 - c.utf8Size) cs).map (c :: ·) else none

/-- What follows the first `n` bytes. -/
def dropBytes? : Nat → List Char → Option (List Char)
  | 0, cs => some cs
  | _ + 1, [] => none
  | n + 1, c :: cs =>
    if c.utf8Size ≤ n + 1 then dropBytes? (n + 1 - c.utf8Size) cs else none

/-- The bytes from place `i` up to place `j`. -/
def between? (i j : Nat) (cs : List Char) : Option (List Char) :=
  (takeBytes? j cs).bind (dropBytes? i)

theorem takeBytes?_append (a b : List Char) : takeBytes? (byteLength a) (a ++ b) = some a := by
  induction a with
  | nil => cases b <;> rfl
  | cons c a ih =>
    have hc := c.utf8Size_pos
    obtain ⟨n, hn⟩ : ∃ n, byteLength (c :: a) = n + 1 :=
      ⟨byteLength (c :: a) - 1, by simp only [byteLength]; omega⟩
    have hrest : n + 1 - c.utf8Size = byteLength a := by
      rw [← hn]; simp only [byteLength]; omega
    have hle : c.utf8Size ≤ n + 1 := by rw [← hn]; simp only [byteLength]; omega
    simp [hn, takeBytes?, hle, hrest, ih]

theorem dropBytes?_append (a b : List Char) : dropBytes? (byteLength a) (a ++ b) = some b := by
  induction a with
  | nil => cases b <;> rfl
  | cons c a ih =>
    have hc := c.utf8Size_pos
    obtain ⟨n, hn⟩ : ∃ n, byteLength (c :: a) = n + 1 :=
      ⟨byteLength (c :: a) - 1, by simp only [byteLength]; omega⟩
    have hrest : n + 1 - c.utf8Size = byteLength a := by
      rw [← hn]; simp only [byteLength]; omega
    have hle : c.utf8Size ≤ n + 1 := by rw [← hn]; simp only [byteLength]; omega
    simp [hn, dropBytes?, hle, hrest, ih]

end FreshTag.Text
