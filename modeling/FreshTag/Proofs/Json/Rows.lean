/-
FreshTag/Proofs/Json/Rows.lean

Objects of which one member is written in a way of its own, behind and before
others (`rowText`).  Whatever the reader makes of that text wherever it ends, it
makes of it in the object too (`parseMap_rowText`).  So the value under the key,
if the key does not come again, is what the text is read as
(`find?_of_parseMap`), and an object with this member alone is read if the text
is (`parseMap_alone`).
-/
import FreshTag.Proofs.Json.Rereading

namespace FreshTag.Json

/-- An object of which one member is written as given. -/
def rowText (before : Members) (column : String) (value : List Char) (behind : Members) : String :=
  String.ofList (braced (printMembers before ++ printMember column value :: printMembers behind))

section

variable {parse : String → Except Error Value} {depth : Nat} {before behind row : Members}
  {column : String} {value : List Char} {r : Except Error Value}

/-- Members are read, and then what stands behind them. -/
theorem readMembers_append (hbefore : ∀ m ∈ before, m.2.WellFormed) (fuel : Nat) (first : Bool)
    (parts : List (List Char)) (rest : List Char) :
    readMembers (readValue (some parse) depth) (before.length + fuel) first
        (joined first (printMembers before ++ parts) ++ '\x7d' :: rest) = (do
      let ws ← rereadMembers parse depth before
      let (xs, cs) ← readMembers (readValue (some parse) depth) fuel (first && before.isEmpty)
        (joined (first && before.isEmpty) parts ++ '\x7d' :: rest)
      .ok (ws ++ xs, cs)) := by
  induction before generalizing first with
  | nil =>
    rw [List.length_nil, Nat.zero_add, List.isEmpty_nil, Bool.and_true, rereadMembers]
    show readMembers _ _ _ (joined first parts ++ _) = (readMembers _ _ _ _ >>= _)
    rcases readMembers _ _ _ (joined first parts ++ _) with e | ⟨xs, cs⟩ <;> rfl
  | cons m before ih =>
    obtain ⟨hm, hbefore⟩ := List.forall_mem_cons.mp hbefore
    have hread := @reads_value parse _ hm depth _
      (ends_joined (printMembers before ++ parts) (.inr rfl) rest)
    have hrest := ih hbefore false
    rw [List.length_cons, Nat.add_right_comm, printMembers, List.cons_append, joined_cons_append,
      readMembers_led, hread, rereadMembers, List.isEmpty_cons, Bool.and_false]
    rcases m.2.reread parse depth with e | w
    · rfl
    · show (readMembers _ (before.length + fuel) false _ >>= _) = _
      rw [hrest, Bool.false_and]
      rcases rereadMembers parse depth before with e | ws
      · rfl
      · show ((readMembers _ fuel false _ >>= _) >>= _) = (readMembers _ fuel false _ >>= _)
        rcases readMembers _ fuel false _ with e | ⟨xs, cs⟩ <;> rfl

/-- What the members of the object are read as, where the one is read as `r`. -/
def rereadRow (parse : String → Except Error Value) (depth : Nat) (before : Members)
    (column : String) (r : Except Error Value) (behind : Members) : Except Error Members := do
  let ws ← rereadMembers parse depth before
  let v ← r
  let us ← rereadMembers parse depth behind
  .ok (ws ++ (column, v) :: us)

theorem readMembers_row (hbefore : ∀ m ∈ before, m.2.WellFormed)
    (hbehind : ∀ m ∈ behind, m.2.WellFormed)
    (hvalue : Reads (readValue (some parse) depth) value r) {fuel : Nat}
    (hfuel : before.length + (behind.length + 1) < fuel) (rest : List Char) :
    readMembers (readValue (some parse) depth) fuel true
        (joined true (printMembers before ++ printMember column value :: printMembers behind) ++
          '\x7d' :: rest) =
      (rereadRow parse depth before column r behind).map (·, '\x7d' :: rest) := by
  obtain ⟨left, rfl⟩ : ∃ left, fuel = before.length + (left + 1) :=
    ⟨fuel - before.length - 1, by omega⟩
  have hcolumn := hvalue _ (ends_joined (printMembers behind) (.inr rfl) rest)
  have hrest := readMembers_printed
    (fun m hm => @reads_value parse _ (hbehind m hm) depth)
    (show behind.length < left by omega) false rest
  rw [readMembers_append hbefore, rereadRow]
  -- what cannot be read ends the row, wherever it stands
  rcases rereadMembers parse depth before with e | ws
  · rfl
  show ((readMembers _ (left + 1) (true && before.isEmpty) _ >>= _) : Except Error _) = _
  rw [joined_cons_append, readMembers_led, hcolumn]
  rcases r with e | v
  · rfl
  show ((readMembers _ left false _ >>= _) >>= _) = _
  rw [hrest]
  rcases rereadMembers parse depth behind with e | us <;> rfl

/-- The text is parsed as its members are read; inside of the object 126 more levels may be open. -/
theorem parseMap_rowText (hbefore : ∀ m ∈ before, m.2.WellFormed)
    (hbehind : ∀ m ∈ behind, m.2.WellFormed)
    (hvalue : ∀ parse, Reads (readValue (some parse) 126) value r) :
    ∃ parse, parseMap (rowText before column value behind) =
      (rereadRow parse 126 before column r behind).map Members.ofList := by
  refine ⟨parseWithin (rowText before column value behind).length, ?_⟩
  generalize hparse : parseWithin (rowText before column value behind).length = parse
  have hparts : ∀ part ∈ printMembers before ++ printMember column value :: printMembers behind,
      part ≠ [] :=
    List.forall_mem_append.mpr ⟨printMembers_ne_nil before,
      List.forall_mem_cons.mpr ⟨List.cons_ne_nil _ _, printMembers_ne_nil behind⟩⟩
  have hfuel := length_lt_joined hparts '\x7d' []
  rw [List.length_append, List.length_cons, length_printMembers, length_printMembers] at hfuel
  have hread : readMap (some parse) nestingLimit (rowText before column value behind).toList =
      (rereadRow parse 126 before column r behind).map (Members.ofList ·, []) := by
    rw [rowText, String.toList_ofList, ← List.append_nil (braced _), braced_append, readMap,
      skipBlank_cons (by decide)]
    show (readMembers _ _ true _ >>= _) = _
    rw [readMembers_row hbefore hbehind (hvalue parse) hfuel]
    rcases rereadRow parse 126 before column r behind with e | entries <;> rfl
  rw [parseMap, parseAll, embeddedIn, hparse, hread]
  rcases rereadRow parse 126 before column r behind with e | entries <;> rfl

/-- In a row that is read the column has the value that its text is read as. -/
theorem find?_of_parseMap (hbefore : ∀ m ∈ before, m.2.WellFormed)
    (hbehind : ∀ m ∈ behind, m.2.WellFormed) (hcolumn : column ∉ behind.map Prod.fst)
    (hvalue : ∀ parse, Reads (readValue (some parse) 126) value r)
    (h : parseMap (rowText before column value behind) = .ok row) :
    ∃ v, r = .ok v ∧ Members.find? column row = some v := by
  obtain ⟨parse, hparse⟩ := parseMap_rowText hbefore hbehind hvalue
  rw [hparse] at h
  obtain ⟨entries, hentries, rfl⟩ := map_eq_ok h
  obtain ⟨ws, -, hentries⟩ := bind_eq_ok hentries
  obtain ⟨v, hv, hentries⟩ := bind_eq_ok hentries
  obtain ⟨us, hus, hentries⟩ := bind_eq_ok hentries
  obtain rfl := Except.ok.inj hentries
  rw [← keys_of_rereadMembers hus] at hcolumn
  exact ⟨v, hv, Members.find?_ofList_of_not_mem ws hcolumn⟩

/-- A row of one column is read if the value is. -/
theorem parseMap_alone (hvalue : ∀ parse, Reads (readValue (some parse) 126) value r) :
    parseMap (rowText [] column value []) = r.map fun v => Members.ofList [(column, v)] := by
  obtain ⟨parse, hparse⟩ := @parseMap_rowText [] [] column value r nofun nofun hvalue
  rw [hparse]
  rcases r with e | v <;> rfl

end

end FreshTag.Json
