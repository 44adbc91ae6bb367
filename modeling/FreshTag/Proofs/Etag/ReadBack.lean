/-
FreshTag/Proofs/Etag/ReadBack.lean

What the stored text of an etag is read as (`parse_text`).  Its four texts come
back as they were, and the row as the text of each of its values is read inside
an object that is itself inside the etag: a row may be nested one level less
deep there than where it stands alone.

Of a row without floating-point numbers only two things matter, how deep it is
nested and whether an object inside of it stands for an embedded text
(`text_gives_etag_back`).
-/
import FreshTag.Etag.Text
import FreshTag.Proofs.Json.Records

namespace FreshTag

open Json

namespace WeakEtag

/-- An etag with its texts read, but nothing of its row. -/
def textsRead (e : WeakEtag) : Draft where
  collection := some e.collection
  featureId := some e.featureId
  version := some e.version
  lastModified := some e.lastModified

/-- The members that hold texts. -/
def textMembers (e : WeakEtag) : List (List Char) :=
  [printMember "collection" (printString e.collection),
    printMember "feature_id" (printString e.featureId),
    printMember "version" (printString e.version),
    printMember "last_modified" (printString e.lastModified)]

theorem readMembers_texts (embedded : Embedded) (depth fuel : Nat) (e : WeakEtag)
    (more : List (List Char)) (cs : List Char) :
    Record.readMembers ⟨"WeakEtag", fields embedded depth⟩ (fuel + 4) true {}
        (joined true (e.textMembers ++ more) ++ cs) =
      Record.readMembers ⟨"WeakEtag", fields embedded depth⟩ fuel false e.textsRead
        (joined false more ++ cs) := by
  unfold textMembers
  -- each text is the next member, and its field was not read before
  rw [List.cons_append, joined_cons_append,
    Record.readMembers_text _ (by simp [fields]; rfl)
      (fun d s => { d with collection := some s }) (fun _ _ => rfl) _ _ rfl,
    List.cons_append, joined_cons_append,
    Record.readMembers_text _ (by simp [fields]; rfl)
      (fun d s => { d with featureId := some s }) (fun _ _ => rfl) _ _ rfl,
    List.cons_append, joined_cons_append,
    Record.readMembers_text _ (by simp [fields]; rfl)
      (fun d s => { d with version := some s }) (fun _ _ => rfl) _ _ rfl,
    List.cons_append, joined_cons_append,
    Record.readMembers_text _ (by simp [fields]; rfl)
      (fun d s => { d with lastModified := some s }) (fun _ _ => rfl) _ _ rfl]
  rfl

theorem readOption_object {α : Type} (read : List Char → Except Json.Error (α × List Char))
    (row : Members) (cs : List Char) :
    readOption read ((Value.object row).print ++ cs) =
      (read ((Value.object row).print ++ cs)).map fun (x, cs) => (some x, cs) := by
  rw [print_object_append]
  exact readOption_of_ne read (by decide) (by decide) _

/-- The member that holds the row, if the row is known. -/
def rowMembers (e : WeakEtag) : List (List Char) :=
  match e.data with
  | some row => [printMember "data" (Value.object row).print]
  | none => []

theorem toList_text (e : WeakEtag) : e.text.toList =
    '\x7b' :: (joined true (e.textMembers ++ e.rowMembers) ++ ['\x7d']) := by
  rw [text, String.toList_ofList, ← List.append_nil e.print]
  exact braced_append _ []

theorem length_text_ne_zero (e : WeakEtag) : e.text.length ≠ 0 := by
  rw [← String.length_toList, toList_text]
  exact Nat.succ_ne_zero _

/-- What the row of an etag is read as. -/
def rereadRow (parse : String → Except Json.Error Value) (e : WeakEtag) :
    Except Json.Error (Option Members) :=
  match e.data with
  | some row => (rereadMembers parse 125 row).map some
  | none => .ok none

variable {embeddedText : String → Except Json.Error Value}

theorem readMembers_row {e : WeakEtag}
    (hrow : ∀ row, e.data = some row → (Value.object row).WellFormed) (fuel : Nat) :
    Record.readMembers ⟨"WeakEtag", fields (some embeddedText) 126⟩ (fuel + 2) false e.textsRead
        (joined false e.rowMembers ++ ['\x7d']) =
      (e.rereadRow embeddedText).map fun data =>
        ({ e.textsRead with data := data.map some }, ['\x7d']) := by
  unfold rowMembers rereadRow
  rcases hdata : e.data with - | row
  · rfl
  · simp only
    rw [joined_cons_append, Record.readMembers_led _ (by simp [fields]; rfl) _ _ rfl]
    show (Except.map _ (readOption _ _) >>= _) = _
    rw [readOption_object, readMap_printed (hrow row hdata)]
    rcases rereadMembers embeddedText 125 row with cause | row' <;> rfl

theorem read_text {e : WeakEtag}
    (hrow : ∀ row, e.data = some row → (Value.object row).WellFormed) :
    Record.read "WeakEtag" (fields (some embeddedText)) {} nestingLimit e.text.toList =
      (e.rereadRow embeddedText).map fun data =>
        ({ e.textsRead with data := data.map some }, []) := by
  -- fuel for four texts, for the row and for the end
  have hlength : 6 ≤ (joined true (e.textMembers ++ e.rowMembers) ++ ['\x7d']).length := by
    simp [textMembers, joined, led, printMember, printString, printText]
    omega
  obtain ⟨fuel, hfuel⟩ := Nat.exists_eq_add_of_le' hlength
  rw [toList_text, Record.read, skipBlank_cons (by decide)]
  show (Record.readMembers _ _ true _ _ >>= _) = _
  rw [hfuel, show fuel + 6 = (fuel + 2) + 4 from rfl, readMembers_texts, readMembers_row hrow]
  rcases e.rereadRow embeddedText with cause | data
  · rfl
  · rcases data with - | row
    · rfl
    · rfl

/-- What the stored text of an etag is read as. -/
theorem parse_text {e : WeakEtag}
    (hrow : ∀ row, e.data = some row → (Value.object row).WellFormed) :
    parse e.text = (e.rereadRow (parseWithin e.text.length)).map fun data => { e with data } := by
  rw [parse, parseAll, embeddedIn, read_text hrow]
  rcases e.rereadRow _ with cause | data
  · rfl
  · rcases data with - | row <;> rfl

/-- The etag comes back exactly if its row, where it is known, is nested at most 126 deep, and every
part of its values is stable. -/
theorem parse_text_eq_ok_iff {e : WeakEtag}
    (hrow : ∀ row, e.data = some row → (Value.object row).WellFormed) :
    parse e.text = .ok e ↔ ∀ row, e.data = some row →
      (Value.object row).depth ≤ 126 ∧ ∀ u ∈ partsOfMembers row, u.Stable := by
  have hparse : ∀ s v, parseWithin e.text.length s = .ok v →
      ∀ x, v ≠ .object [(embeddedKey, x)] := fun s v h x => parseWithin_ne h x
  have hsame : parse e.text = .ok e ↔ e.rereadRow (parseWithin e.text.length) = .ok e.data := by
    rw [parse_text hrow]
    rcases e.rereadRow (parseWithin e.text.length) with cause | data
    · simp [Except.map]
    · obtain ⟨collection, featureId, version, lastModified, row⟩ := e
      simp [Except.map]
  rw [hsame, rereadRow]
  rcases e.data with - | row
  · simp
  · simp only [Option.some.injEq, forall_eq']
    rw [map_eq_ok_iff fun _ _ => Option.some.inj, rereadMembers_eq_ok_iff, Value.depth,
      Nat.succ_le_succ_iff, depthOfMembers_le, forall_partsOfMembers, ← forall₂_and]
    exact forall₂_congr fun m _ => reread_eq_ok_iff hparse

/-- If every part of its values is stable, only the depth of the row matters. -/
theorem parse_text_of_stable {e : WeakEtag} {row : Members} (hdata : e.data = some row)
    (hrow : (Value.object row).WellFormed) (hstable : ∀ u ∈ partsOfMembers row, u.Stable) :
    parse e.text =
      if (Value.object row).depth ≤ 126 then .ok e else .error .recursionLimit := by
  have hvalues := forall_partsOfMembers.mp hstable
  have hrows : ∀ row', e.data = some row' → (Value.object row').WellFormed := by
    rintro row' hrow'
    obtain rfl := Option.some.inj (hdata.symm.trans hrow')
    exact hrow
  rw [parse_text hrows, rereadRow, hdata]
  simp only [Value.depth, Nat.reduceLeDiff]
  rw [@rereadMembers_of_forall _ 125 _ fun m hm => reread_of_stable (hvalues m hm)]
  by_cases hdepth : depthOfMembers row ≤ 125
  · obtain ⟨collection, featureId, version, lastModified, data⟩ := e
    obtain rfl : data = some row := hdata
    simp [hdepth, Except.map]
  · simp [hdepth, Except.map]

/-! ### Rows of whole numbers -/

/-- A row that a text can denote, with no other numbers than whole ones. -/
structure WholeRow (row : Members) : Prop where
  wellFormed : (Value.object row).WellFormed
  whole : ∀ x, Value.number (.float x) ∉ partsOfMembers row

/-- No object inside of the row stands for an embedded text. -/
def Unmarked (row : Members) : Prop :=
  ∀ members, Value.object members ∈ partsOfMembers row → mark? members = none

theorem WholeRow.stable_iff {row : Members} (h : WholeRow row) :
    (∀ u ∈ partsOfMembers row, u.Stable) ↔ Unmarked row := by
  obtain ⟨-, hformed⟩ := forall_parts_object.mp h.wellFormed
  constructor
  · exact fun hstable members hmem => hstable _ hmem
  · intro hmark u hu
    refine (hformed u hu).stable ?_ ?_
    · rintro x rfl
      exact h.whole x hu
    · rintro members rfl
      exact hmark members hu

/-- An etag without a row comes back from its text.  One with a row of whole numbers comes back
exactly if the row is nested at most 126 deep, itself counted, and no object inside of it stands for
an embedded text; a deeper row without such an object is refused for its depth.  Whatever comes back
differs at most in the row. -/
theorem text_gives_etag_back {e : WeakEtag} (hwhole : ∀ row, e.data = some row → WholeRow row) :
    (e.data = none → parse e.text = .ok e) ∧
      (∀ row, e.data = some row →
        (parse e.text = .ok e ↔ (Value.object row).depth ≤ 126 ∧ Unmarked row) ∧
        (126 < (Value.object row).depth → Unmarked row →
          parse e.text = .error .recursionLimit)) ∧
      ∀ f, parse e.text = .ok f → f = { e with data := f.data } := by
  have hrows : ∀ row, e.data = some row → (Value.object row).WellFormed :=
    fun row hrow => (hwhole row hrow).wellFormed
  refine ⟨fun hnone => ?_, fun row hrow => ⟨?_, fun hdeep hmark => ?_⟩, fun f hf => ?_⟩
  · refine (parse_text_eq_ok_iff hrows).mpr fun row hrow => ?_
    rw [hnone] at hrow
    cases hrow
  · rw [parse_text_eq_ok_iff hrows, hrow, ← (hwhole row hrow).stable_iff]
    simp only [Option.some.injEq, forall_eq']
  · have hstable := (hwhole row hrow).stable_iff.mpr hmark
    rw [parse_text_of_stable hrow (hrows row hrow) hstable, if_neg (Nat.not_le.mpr hdeep)]
  · rw [parse_text hrows] at hf
    obtain ⟨data, -, rfl⟩ := map_eq_ok hf
    rfl

/-- An oak with a row of numbers at their limits, empty parts and characters to escape. -/
def oddOak : WeakEtag where
  collection := "public.\"old plants\""
  featureId := "oak\\\n"
  version := "10"
  lastModified := ""
  data := some [("", .array [.object [], .array []]),
    ("height", .number (.natural 18446744073709551615)),
    ("root\t", .number (.negative 9223372036854775808)), ("sign", .string "🌳\x01")]

theorem oddOak_comes_back : parse oddOak.text = .ok oddOak := by
  have hwhole : ∀ row, oddOak.data = some row → WholeRow row := by
    rintro row ⟨⟩
    refine ⟨forall_parts_object.mpr ⟨?_, ?_⟩, ?_⟩
    · simp only [Value.Formed, Members.Sorted]
      decide
    · simp [partsOfMembers, partsOfItems, Value.parts, Value.Formed, Members.Sorted,
        Number.InRange, Number.twoTo]
    · simp [partsOfMembers, partsOfItems, Value.parts]
  obtain ⟨-, hrow, -⟩ := text_gives_etag_back hwhole
  refine (hrow _ rfl).1.mpr ⟨by decide, ?_⟩
  simp [Unmarked, partsOfMembers, partsOfItems, Value.parts, mark?]

/-- An oak with a note in which an object has `embeddedKey` as its only key. -/
def markedOak : WeakEtag where
  collection := "public.plants"
  featureId := "oak"
  version := "10"
  lastModified := "Sun, 06 Nov 1994 08:49:37 GMT"
  data := some [("a", .object [(embeddedKey, .string "5")])]

theorem wholeRow_markedOak {row : Members} (hrow : markedOak.data = some row) : WholeRow row := by
  obtain rfl := Option.some.inj hrow
  constructor
  · simp [Value.WellFormed, partsOfMembers, Value.parts, Value.Formed, Members.Sorted]
  · simp [partsOfMembers, Value.parts]

/-- There is no number in the row, but one comes back where the object was. -/
theorem markedOak_changes :
    (∃ row, markedOak.data = some row ∧ WholeRow row ∧ (Value.object row).depth = 2) ∧
      parse markedOak.text = .ok { markedOak with data := some [("a", .number (.natural 5))] } ∧
      parse markedOak.text ≠ .ok markedOak := by
  have hembedded : parseWithin markedOak.text.length "5" = .ok (.number (.natural 5)) := by
    have hfive : "5" = (Value.number (.natural 5)).text := by decide
    obtain ⟨n, hn⟩ := Nat.exists_eq_add_one_of_ne_zero markedOak.length_text_ne_zero
    have hfits : 5 < Number.twoTo 64 := by decide
    have hformed : (Value.number (.natural 5)).Formed := hfits
    rw [hn, hfive, parseWithin_text (wellFormed_simple hformed rfl), Value.reread,
      reread_natural hfits]
    rfl
  have hparse : parse markedOak.text =
      .ok { markedOak with data := some [("a", .number (.natural 5))] } := by
    rw [parse_text fun row hrow => (wholeRow_markedOak hrow).wellFormed]
    have hdata : markedOak.data = some [("a", .object [(embeddedKey, .string "5")])] := rfl
    rw [rereadRow, hdata]
    simp only [rereadMembers, Value.reread, mark?, if_true, rereadMark, hembedded]
    rfl
  refine ⟨⟨_, rfl, wholeRow_markedOak rfl, by decide⟩, hparse, ?_⟩
  rw [hparse]
  simp [markedOak]

end WeakEtag

end FreshTag
