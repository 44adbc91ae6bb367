/-
FreshTag/Text/Pieces.lean

Cutting a text at a separator.  `pieces sep cs` keeps every piece, empty ones
too, so there is always one piece more than there are separators, and putting
the separator back between the pieces restores the text
(`intercalate_pieces`).  `cutFirst` cuts only at the first separator, behind a
text without one (`cutFirst_eq_some_iff`), and `cutAt` at the first place where
a whole mark stands; the parts around the mark restore the text too
(`eq_of_cutAt`).
-/

namespace FreshTag.Text

/-- All pieces of `cs` between separators, empty ones included. -/
def pieces (sep : Char) : List Char → List (List Char)
  | [] => [[]]
  | c :: cs =>
    if c = sep then [] :: pieces sep cs
    else match pieces sep cs with
      | [] => [[c]]
      | p :: ps => (c :: p) :: ps

/-- The text before the first separator and the text behind it. -/
def cutFirst (sep : Char) : List Char → Option (List Char × List Char)
  | [] => none
  | c :: cs =>
    if c = sep then some ([], cs)
    else (cutFirst sep cs).map fun (a, b) => (c :: a, b)

/-- `pieces` on texts. -/
def splitAt (sep : Char) (s : String) : List String :=
  (pieces sep s.toList).map String.ofList

/-- The text without the characters of `start`, if it begins with them. -/
def dropStart? : List Char → List Char → Option (List Char)
  | [], cs => some cs
  | _ :: _, [] => none
  | a :: start, c :: cs => if a = c then dropStart? start cs else none

/-- The text before the first place where `mark` stands and the text behind the mark. -/
def cutAt (mark : List Char) : List Char → Option (List Char × List Char)
  | [] => (dropStart? mark []).map fun rest => ([], rest)
  | c :: cs =>
    match dropStart? mark (c :: cs) with
    | some rest => some ([], rest)
    | none => (cutAt mark cs).map fun (a, b) => (c :: a, b)

theorem cutFirst_append {sep : Char} {before rest : List Char} (h : sep ∉ before) :
    cutFirst sep (before ++ sep :: rest) = some (before, rest) := by
  induction before with
  | nil => simp [cutFirst]
  | cons c before ih =>
    rw [List.mem_cons, not_or] at h
    have hc : c ≠ sep := Ne.symm h.1
    simp [cutFirst, hc, ih h.2]

theorem cutFirst_eq_none_iff {sep : Char} {cs : List Char} :
    cutFirst sep cs = none ↔ sep ∉ cs := by
  induction cs with
  | nil => simp [cutFirst]
  | cons c cs ih =>
    rw [cutFirst, List.mem_cons, not_or, ← ih]
    split
    · next h => simp [h]
    · next h => simp [Ne.symm h]

theorem cutFirst_eq_some_iff {sep : Char} {cs before rest : List Char} :
    cutFirst sep cs = some (before, rest) ↔ cs = before ++ sep :: rest ∧ sep ∉ before := by
  constructor
  · intro h
    induction cs generalizing before with
    | nil => cases h
    | cons c cs ih =>
      rw [cutFirst] at h
      split at h
      · next hc =>
        obtain ⟨rfl, rfl⟩ := Prod.mk.inj (Option.some.inj h)
        exact ⟨congrArg (· :: cs) hc, List.not_mem_nil⟩
      · next hc =>
        obtain ⟨⟨a, b⟩, hcut, heq⟩ := Option.map_eq_some_iff.1 h
        obtain ⟨rfl, rfl⟩ := Prod.mk.inj heq
        obtain ⟨hcs, hsep⟩ := ih hcut
        exact ⟨congrArg (c :: ·) hcs, fun hmem =>
          (List.mem_cons.1 hmem).elim (fun h => hc h.symm) hsep⟩
  · rintro ⟨rfl, h⟩
    exact cutFirst_append h

theorem dropStart?_append (start cs : List Char) : dropStart? start (start ++ cs) = some cs := by
  induction start with
  | nil => simp [dropStart?]
  | cons a start ih => simp [dropStart?, ih]

theorem eq_of_dropStart? {start cs rest : List Char} (h : dropStart? start cs = some rest) :
    cs = start ++ rest := by
  induction start generalizing cs with
  | nil => simpa [dropStart?] using h
  | cons a start ih =>
    cases cs with
    | nil => simp [dropStart?] at h
    | cons c cs =>
      simp only [dropStart?] at h
      split at h
      · next hac => rw [ih h, hac, List.cons_append]
      · exact absurd h (by simp)

theorem eq_of_cutAt {mark cs a b : List Char} (h : cutAt mark cs = some (a, b)) :
    cs = a ++ mark ++ b := by
  induction cs generalizing a with
  | nil =>
    obtain ⟨rest, hrest, heq⟩ := Option.map_eq_some_iff.1 h
    obtain ⟨rfl, rfl⟩ := Prod.mk.inj heq
    simpa using eq_of_dropStart? hrest
  | cons c cs ih =>
    simp only [cutAt] at h
    split at h
    · next rest hrest =>
      obtain ⟨rfl, rfl⟩ := Prod.mk.inj (Option.some.inj h)
      simpa using eq_of_dropStart? hrest
    · obtain ⟨⟨a', b'⟩, hcut, heq⟩ := Option.map_eq_some_iff.1 h
      obtain ⟨rfl, rfl⟩ := Prod.mk.inj heq
      simp [ih hcut]

theorem pieces_ne_nil (sep : Char) (cs : List Char) : pieces sep cs ≠ [] := by
  cases cs with
  | nil => simp [pieces]
  | cons c cs => unfold pieces; split <;> (try split) <;> simp

theorem length_pieces (sep : Char) (cs : List Char) :
    (pieces sep cs).length = cs.count sep + 1 := by
  induction cs with
  | nil => rfl
  | cons c cs ih =>
    unfold pieces
    split
    · next h => simp [ih, h]
    · next h =>
      have hc : (c == sep) = false := by simpa using h
      split
      · next hp => exact absurd hp (pieces_ne_nil sep cs)
      · next p ps hp => simpa [List.count_cons, hc, hp] using ih

theorem intercalate_pieces (sep : Char) (cs : List Char) :
    List.intercalate [sep] (pieces sep cs) = cs := by
  induction cs with
  | nil => rfl
  | cons c cs ih =>
    unfold pieces
    split
    · next h =>
      cases hp : pieces sep cs with
      | nil => exact absurd hp (pieces_ne_nil sep cs)
      | cons p ps => rw [hp] at ih; simpa [List.intercalate, h] using ih
    · split
      · next hp => exact absurd hp (pieces_ne_nil sep cs)
      · next p ps hp =>
        rw [hp] at ih
        cases ps <;> simpa [List.intercalate] using ih

end FreshTag.Text
