/-
FreshTag/Text/Pattern/Support.lean

Which patterns the matcher takes.  It matches characters by number and has no
tables of them.  So where characters are those of Unicode, there are no
families, no words and no cases.  Where they are bytes, what matches is still
to be text: no byte outside ASCII may match alone, and so neither any character
nor all those outside a set.

Besides, patterns nest to a limit, and the names of their groups differ.

Main statement: letters and digits of ASCII stand for themselves, so a word of
them is a pattern (`isPattern_of_isAlphanum`).
-/
import FreshTag.Text.Pattern.Reader

namespace FreshTag.Text

namespace Pattern

/-- A way to match. -/
structure Mode where
  /-- letters match in either case -/
  fold : Bool := false
  /-- characters are those of Unicode, and not bytes -/
  unicode : Bool := true
  deriving DecidableEq, Repr, Inhabited

/-- The way to match behind flags. -/
def Mode.set (m : Mode) (f : Flags) : Mode where
  fold := f.fold.getD m.fold
  unicode := f.unicode.getD m.unicode

@[simp] theorem Mode.set_empty (m : Mode) : m.set {} = m := rfl

/-- The character is one of ASCII. -/
def Literal.isAscii (c : Literal) : Bool := c.char.toNat < 0x80

/-- The matcher takes a character outside of sets. -/
def Mode.takesLiteral (m : Mode) (c : Literal) : Bool :=
  if m.unicode then !m.fold else !c.isByte || c.isAscii

/-- The matcher takes a character in a set. -/
def Mode.takesMember (m : Mode) (c : Literal) : Bool :=
  if m.unicode then !m.fold else c.isAscii

mutual
/-- The matcher takes a set. -/
def CharSet.isTaken (m : Mode) : CharSet → Bool
  | .empty => true
  | .literal c => m.takesMember c
  | .range first last => m.takesMember first && m.takesMember last
  | .named negated => if m.unicode then !m.fold else !negated
  | .family negated => !m.unicode && !negated
  | .bracketed negated s => s.isTaken m && (m.unicode || !negated)
  | .union sets => CharSet.areTaken m sets
  | .combined first second => first.isTaken m && second.isTaken m

/-- The matcher takes several sets. -/
def CharSet.areTaken (m : Mode) : List CharSet → Bool
  | [] => true
  | s :: sets => s.isTaken m && CharSet.areTaken m sets
end

mutual
/-- The way to match behind a pattern; none if the matcher does not take it. -/
def modeAfter? (m : Mode) : Pattern → Option Mode
  | .empty | .textEdge => some m
  | .flags f => some (m.set f)
  | .literal c => if m.takesLiteral c then some m else none
  | .dot => if m.unicode then some m else none
  | .chars s => if s.isTaken m then some m else none
  | .wordEdge => if m.unicode then none else some m
  | .repeated p => p.modeAfter? m
  | .group _ f p => (p.modeAfter? (m.set f)).map fun _ => m
  | .sequence ps | .choice ps => modeAfterAll? m ps

/-- The way to match behind several patterns. -/
def modeAfterAll? (m : Mode) : List Pattern → Option Mode
  | [] => some m
  | p :: ps => (p.modeAfter? m).bind fun m => modeAfterAll? m ps
end

/-- How deep patterns may nest. -/
def depthLimit : Nat := 250

/-- The matcher takes a pattern. -/
def isTaken (p : Pattern) : Bool :=
  p.depth ≤ depthLimit && decide p.names.Nodup && (p.modeAfter? {}).isSome

end Pattern

/-- The text is a pattern that the matcher takes. -/
def isPattern (cs : List Char) : Bool :=
  (Pattern.ofChars? cs).any (·.isTaken)

/-! ### Words -/

namespace Pattern

/-- The characters of a word, each standing for itself. -/
def word (cs : List Char) : List Pattern :=
  cs.map fun c => .literal { char := c }

theorem readItems_word {cs : List Char} (h : ∀ c ∈ cs, c.isAlphanum = true) {fuel : Nat}
    (hf : cs.length < fuel) (branches items : List Pattern) :
    readItems fuel false branches items cs =
      some (close branches ((word cs).reverse ++ items), []) := by
  induction cs generalizing fuel items with
  | nil =>
    obtain ⟨fuel, rfl⟩ := Nat.exists_eq_succ_of_ne_zero (Nat.ne_of_gt hf)
    rfl
  | cons c cs ih =>
    obtain ⟨fuel, rfl⟩ := Nat.exists_eq_succ_of_ne_zero (Nat.ne_of_gt (Nat.zero_lt_of_lt hf))
    have hc := h c List.mem_cons_self
    have literal : ofChar c = .literal { char := c } := by
      unfold ofChar
      split
      · next hd => exact absurd hc (by rw [eq_of_beq hd]; decide)
      · split
        · next hd =>
          rcases Bool.or_eq_true _ _ ▸ hd with hd | hd <;>
            exact absurd hc (by rw [eq_of_beq hd]; decide)
        · rfl
    have rest := ih (fun d hd => h d (List.mem_cons_of_mem _ hd))
      (Nat.lt_of_succ_lt_succ hf) (.literal { char := c } :: items)
    simp only [readItems, skipGap, Bool.false_eq_true, if_false]
    split
    case h_1 heq => exact absurd heq (List.cons_ne_nil c cs)
    case h_11 heq =>
      obtain ⟨rfl, rfl⟩ := List.cons.inj heq
      rw [literal, rest]
      simp [word]
    all_goals
      next heq => exact absurd hc (by rw [(List.cons.inj heq).1]; decide)

theorem ofChars?_word {cs : List Char} (h : ∀ c ∈ cs, c.isAlphanum = true) :
    ofChars? cs = some (sequenceOf (word cs)) := by
  rw [ofChars?, readItems_word h (Nat.lt_succ_self _)]
  simp [close, choiceOf]

theorem depthOfAll_word (cs : List Char) : depthOfAll (word cs) = 0 := by
  induction cs with
  | nil => rfl
  | cons c cs ih => simpa [word, depthOfAll, depth] using ih

theorem namesOfAll_word (cs : List Char) : namesOfAll (word cs) = [] := by
  induction cs with
  | nil => rfl
  | cons c cs ih => simpa [word, namesOfAll, names] using ih

theorem modeAfterAll?_word (cs : List Char) : modeAfterAll? {} (word cs) = some {} := by
  induction cs with
  | nil => rfl
  | cons c cs ih => simpa [word, modeAfterAll?, modeAfter?, Mode.takesLiteral] using ih

theorem isTaken_word (cs : List Char) : (sequenceOf (word cs)).isTaken = true := by
  match cs with
  | [] => rfl
  | [c] => simp [word, sequenceOf, isTaken, depth, names, modeAfter?, Mode.takesLiteral]
  | c :: d :: cs =>
    have hd := depthOfAll_word (c :: d :: cs)
    have hn := namesOfAll_word (c :: d :: cs)
    have hm := modeAfterAll?_word (c :: d :: cs)
    have hs : sequenceOf (word (c :: d :: cs)) = .sequence (word (c :: d :: cs)) := rfl
    simp [hs, isTaken, depth, names, modeAfter?, hd, hn, hm, depthLimit]

end Pattern

/-- Letters and digits of ASCII stand for themselves, so a word of them is a pattern. -/
theorem isPattern_of_isAlphanum {cs : List Char} (h : ∀ c ∈ cs, c.isAlphanum = true) :
    isPattern cs = true := by
  simp [isPattern, Pattern.ofChars?_word h, Pattern.isTaken_word]

end FreshTag.Text
