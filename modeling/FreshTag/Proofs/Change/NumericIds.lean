/-
FreshTag/Proofs/Change/NumericIds.lean

Feature ids that are numbers.  A row has the number of a column in its text, as
a number or in quotes, behind and before other columns (`RowWith`), and the
feature id depends on what that text is read as, and on nothing else
(`RowWith.exists_value`).

A whole number of 64 bits is read exactly and shown exactly (`exists_number`).
In a column of type `numeric` a number may stand in quotes.  The text in them is
read as it would be without them, by the same grammar (`Numeral`), so the quotes
make no difference; and what is not in the grammar, or out of range, gives no id
(`numeric_ids_are_exact`).
-/
import FreshTag.Change.FeatureId
import FreshTag.Proofs.Json.Grammar
import FreshTag.Proofs.Json.Rows
import Mathlib

namespace FreshTag.Change

open FreshTag.Catalog (ColumnKind Table)
open FreshTag.Json (Members Numeral Reads Value)

/-- The row is read from a text in which the value of the column is written as given, behind and
before other columns with whatever values. -/
def RowWith (column : String) (value : List Char) (row : Members) : Prop :=
  ∃ before behind : Members, (∀ m ∈ before ++ behind, m.2.WellFormed) ∧
    column ∉ behind.map Prod.fst ∧ Json.parseMap (Json.rowText before column value behind) = .ok row

section

variable {table : Table} {column : String} {kind : ColumnKind} {row : Members}

theorem RowWith.exists_value {value : List Char} {r : Except Json.Error Value}
    (h : RowWith column value row)
    (hvalue : ∀ parse, Reads (Json.readValue (some parse) 126) value r) :
    ∃ v, r = .ok v ∧ Members.find? column row = some v := by
  obtain ⟨before, behind, hothers, hcolumn, hrow⟩ := h
  obtain ⟨hbefore, hbehind⟩ := List.forall_mem_append.mp hothers
  exact Json.find?_of_parseMap hbefore hbehind hcolumn hvalue hrow

/-- What the value of the column gives decides. -/
theorem featureId_of_find? (hcolumn : table.idColumn = some column)
    (hkind : table.idKind = some kind) {v : Value} (hfind : Members.find? column row = some v) :
    featureId table row = match idOfValue kind v with
      | some id => .ok id
      | none => .error (.unhandled column kind) := by
  rw [featureId, hcolumn, hkind]
  rcases hid : idOfValue kind v with - | id
  · simp only [hfind, Option.bind_some, hid]
  · simp only [hfind, Option.bind_some, hid]

/-! ### Whole numbers -/

/-- A whole number of 64 bits, with a sign or without, is read from its digits and shown with six
zeros behind them. -/
theorem exists_number {n : Int} (hlow : -(2 ^ 63) ≤ n) (hhigh : n < 2 ^ 64) :
    ∃ m : Json.Number, m.InRange ∧ m.print = (toString n).toList ∧ m.reread = .ok m ∧
      fixedText m = toString n ++ ".000000" := by
  have hlarge : Number.twoTo 64 = 2 ^ 64 := rfl
  have hsmall : Number.twoTo 63 = 2 ^ 63 := rfl
  have hwhole : ∀ k : Nat, String.ofList (Number.wholeText k) = toString k ++ ".000000" := by
    intro k
    rw [Number.wholeText, String.ofList_append]
    rfl
  have hdigits : ∀ k : Nat, (toString k).toList = Nat.toDigits 10 k := fun k =>
    String.toList_ofList
  rcases n with k | k
  · have hfits : k < Number.twoTo 64 := by
      rw [hlarge]
      exact Int.ofNat_lt.mp hhigh
    exact ⟨.natural k, hfits, (hdigits k).symm, Json.reread_natural hfits, hwhole k⟩
  · have hfits : 1 ≤ k + 1 ∧ k + 1 ≤ Number.twoTo 63 := by
      rw [hsmall]
      omega
    have htext : toString (Int.negSucc k) = "-" ++ toString (k + 1) := rfl
    refine ⟨.negative (k + 1), hfits, ?_, Json.reread_negative hfits, ?_⟩
    · rw [htext, String.toList_append, hdigits]
      rfl
    · rw [htext, String.append_assoc, ← hwhole]
      exact @String.ofList_append ['-'] (Number.wholeText (k + 1))

/-- Where the kind of the column is a number, whole numbers are shown as they are written. -/
theorem featureId_integer (hcolumn : table.idColumn = some column)
    (hkind : table.idKind = some kind) (hnumeric : kind.isNumeric = true) {n : Int}
    (hlow : -(2 ^ 63) ≤ n) (hhigh : n < 2 ^ 64) (h : RowWith column (toString n).toList row) :
    featureId table row = .ok (toString n ++ ".000000") := by
  obtain ⟨m, hrange, htext, hread, hshown⟩ := exists_number hlow hhigh
  rw [← htext] at h
  obtain ⟨v, hv, hfind⟩ := h.exists_value fun parse => Json.reads_number (some parse) hrange 126
  rw [hread] at hv
  obtain rfl := Except.ok.inj hv
  rw [featureId_of_find? hcolumn hkind hfind, idOfValue, if_pos hnumeric, hshown]

theorem exists_integer_row (column : String) {n : Int} (hlow : -(2 ^ 63) ≤ n) (hhigh : n < 2 ^ 64) :
    ∃ row, Json.parseMap (Json.rowText [] column (toString n).toList []) = .ok row := by
  obtain ⟨m, hrange, htext, hread, -⟩ := exists_number hlow hhigh
  have halone : Json.parseMap (Json.rowText [] column m.print []) = _ :=
    Json.parseMap_alone fun parse => Json.reads_number (some parse) hrange 126
  rw [← htext, halone, hread]
  exact ⟨_, rfl⟩

theorem integerId_injective {n m : Int} (h : toString n ++ ".000000" = toString m ++ ".000000") :
    n = m :=
  Int.repr_inj.mp ((String.append_left_inj ".000000").mp h)

/-! ### Numbers in quotes -/

theorem reads_quoted (t : String) (parse : String → Except Json.Error Value) :
    Reads (Json.readValue (some parse) 126) (Json.printString t) (.ok (.string t)) :=
  fun rest _ => Json.readValue_string (some parse) t 126 rest

theorem reads_numeral {t : String} (h : Numeral t.toList)
    (parse : String → Except Json.Error Value) :
    Reads (Json.readValue (some parse) 126) t.toList ((Json.Number.read t).map .number) :=
  h.reads_value h.reads (some parse) 126

/-- A string in a column of type `numeric` gives the id of the number that it is the text of. -/
theorem featureId_quoted (hcolumn : table.idColumn = some column)
    (hkind : table.idKind = some .numeric) {t : String}
    (h : RowWith column (Json.printString t) row) :
    featureId table row = match Json.Number.ofText? t with
      | some n => .ok (fixedText n)
      | none => .error (.unhandled column .numeric) := by
  obtain ⟨v, hv, hfind⟩ := h.exists_value (reads_quoted t)
  obtain rfl := Except.ok.inj hv
  rw [featureId_of_find? hcolumn hkind hfind]
  show (match (Json.Number.ofText? t).map fixedText with
    | some id => Except.ok id
    | none => Except.error (NoFeatureId.unhandled column .numeric)) = _
  rcases Json.Number.ofText? t with - | n <;> rfl

/-- Without quotes the text is in range and gives the id of its number. -/
theorem exists_featureId_unquoted (hcolumn : table.idColumn = some column)
    (hkind : table.idKind = some .numeric) {t : String} (ht : Numeral t.toList)
    (h : RowWith column t.toList row) :
    ∃ n, Json.Number.ofText? t = some n ∧ featureId table row = .ok (fixedText n) := by
  obtain ⟨v, hv, hfind⟩ := h.exists_value (reads_numeral ht)
  obtain ⟨n, hn, rfl⟩ := Json.map_eq_ok hv
  unfold Json.Number.read at hn
  split at hn
  · next m hm =>
    obtain rfl := Except.ok.inj hn
    exact ⟨m, hm, featureId_of_find? hcolumn hkind hfind⟩
  · cases hn

theorem parseMap_unquoted_error {t : String} (ht : Numeral t.toList) {e : Json.Error}
    (h : Json.parseMap (Json.rowText [] column t.toList []) = .error e) :
    e = .numberOutOfRange ∧ Json.Number.ofText? t = none := by
  rw [Json.parseMap_alone (reads_numeral ht), Json.Number.read] at h
  rcases hread : Json.Number.ofText? t with - | n
  · rw [hread] at h
    exact ⟨(Except.error.inj h).symm, rfl⟩
  · rw [hread] at h
    cases h

/-- In a column of a numeric kind, every whole number of 64 bits, with a sign or without, is read
and gets its own digits with six zeros for an id, so that different numbers have different ids.  If
the kind is `numeric`, it makes no difference whether a number stands in quotes: wherever it is read
without them, the row with the quotes has the same id, and where it alone is not read, it is out of
range, and with the quotes gives no id.  A text in quotes that is no number of the grammar gives no
id either. -/
theorem numeric_ids_are_exact (hcolumn : table.idColumn = some column)
    (hkind : table.idKind = some kind) (hnumeric : kind.isNumeric = true) :
    (∀ n : Int, -(2 ^ 63) ≤ n → n < 2 ^ 64 →
      (∃ row, Json.parseMap (Json.rowText [] column (toString n).toList []) = .ok row) ∧
      ∀ row, RowWith column (toString n).toList row →
        featureId table row = .ok (toString n ++ ".000000")) ∧
    (∀ n m : Int, -(2 ^ 63) ≤ n → n < 2 ^ 64 → -(2 ^ 63) ≤ m → m < 2 ^ 64 → ∀ row row',
      RowWith column (toString n).toList row → RowWith column (toString m).toList row' →
      featureId table row = featureId table row' → n = m) ∧
    (kind = .numeric → ∀ t : String,
      (∃ row, Json.parseMap (Json.rowText [] column (Json.printString t) []) = .ok row) ∧
      (Numeral t.toList →
        (∀ row row', RowWith column t.toList row → RowWith column (Json.printString t) row' →
          ∃ id, featureId table row = .ok id ∧ featureId table row' = .ok id) ∧
        ∀ e, Json.parseMap (Json.rowText [] column t.toList []) = .error e →
          e = .numberOutOfRange ∧ ∀ row, RowWith column (Json.printString t) row →
            featureId table row = .error (.unhandled column kind)) ∧
      (¬ Numeral t.toList → ∀ row, RowWith column (Json.printString t) row →
        featureId table row = .error (.unhandled column kind))) := by
  refine ⟨fun n hlow hhigh => ⟨exists_integer_row column hlow hhigh, fun row hrow =>
    featureId_integer hcolumn hkind hnumeric hlow hhigh hrow⟩, ?_, ?_⟩
  · intro n m hlow hhigh hlow' hhigh' row row' hrow hrow' h
    rw [featureId_integer hcolumn hkind hnumeric hlow hhigh hrow,
      featureId_integer hcolumn hkind hnumeric hlow' hhigh' hrow'] at h
    exact integerId_injective (Except.ok.inj h)
  · rintro rfl t
    refine ⟨⟨_, Json.parseMap_alone (reads_quoted t)⟩, fun ht => ⟨?_, ?_⟩, fun ht row hrow => ?_⟩
    · intro row row' hrow hrow'
      obtain ⟨n, hn, hid⟩ := exists_featureId_unquoted hcolumn hkind ht hrow
      exact ⟨fixedText n, hid, by rw [featureId_quoted hcolumn hkind hrow', hn]⟩
    · intro e he
      obtain ⟨hrange, hnone⟩ := parseMap_unquoted_error ht he
      exact ⟨hrange, fun row hrow => by rw [featureId_quoted hcolumn hkind hrow, hnone]⟩
    · rw [featureId_quoted hcolumn hkind hrow]
      rcases hread : Json.Number.ofText? t with - | n
      · rfl
      · exact absurd (Json.numeral_of_ofText? hread) ht

end

/-- A table whose rows are told apart by a number of any size. -/
def gardens : Table :=
  (Table.ofName "public" "gardens").withIdColumn "id" .numeric

/-- A number above `2 ^ 53` keeps its last digit, with and without quotes, and a plus sign is not
read. -/
theorem gardens_keep_digits :
    gardens.idColumn = some "id" ∧ gardens.idKind = some .numeric ∧
      (∃ row, Json.parseMap (Json.rowText [] "id" "9007199254740993".toList []) = .ok row ∧
        featureId gardens row = .ok "9007199254740993.000000") ∧
      ∀ row, RowWith "id" (Json.printString "+5") row →
        featureId gardens row = .error (.unhandled "id" .numeric) := by
  have hcolumn : gardens.idColumn = some "id" := rfl
  have hkind : gardens.idKind = some .numeric := by decide
  obtain ⟨hintegers, -, hquoted⟩ := numeric_ids_are_exact hcolumn hkind rfl
  have hplus : ¬ Numeral "+5".toList := by
    intro h
    obtain ⟨c, cs, hcs, hc⟩ := h.exists_cons
    obtain ⟨rfl, -⟩ := List.cons.inj hcs
    exact absurd hc (by decide)
  have htext : toString (9007199254740993 : Int) = "9007199254740993" := rfl
  obtain ⟨⟨row, hrow⟩, hids⟩ := hintegers 9007199254740993 (by decide) (by decide)
  have hid := hids row ⟨[], [], nofun, nofun, hrow⟩
  rw [htext] at hrow hid
  exact ⟨hcolumn, hkind, ⟨row, hrow, hid⟩, (hquoted rfl "+5").2.2 hplus⟩

end FreshTag.Change
