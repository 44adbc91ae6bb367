/-
FreshTag/Proofs/Change/Validation.lean

Which cached rows a client can validate.  The strong etag of a row joins the
identifier of its table, the reference system, the format and the version with
`-`, and reading it back cuts at every `-`.  The identifier of a table has as
many of them as the names of its schema and of itself (`count_dash_identifier`),
so a row is found by its strong etag if neither name holds one, and otherwise
its strong etag is refused as malformed (`cached_rows_validate_iff`).
-/
import FreshTag.Proofs.Change.Caching
import FreshTag.Proofs.Change.Deliveries
import FreshTag.Proofs.Etag.Segments

namespace FreshTag

/-! ### Identifiers -/

namespace Catalog

open Text (isSpace trimStart)

theorem count_dash_doubleQuotes (cs : List Char) :
    (doubleQuotes cs).count '-' = cs.count '-' := by
  induction cs with
  | nil => rfl
  | cons c cs ih =>
    unfold doubleQuotes
    split
    · next hc =>
      subst hc
      simp [ih]
    · simp [List.count_cons, ih]

theorem count_dash_plainOrQuoted (name : String) :
    (plainOrQuoted name).toList.count '-' = name.toList.count '-' := by
  unfold plainOrQuoted
  split
  · rfl
  · simp [doubleQuoted, count_dash_doubleQuotes]

/-- An identifier has the dashes of its two names. -/
theorem count_dash_identifier (schema name : String) :
    (Table.identifier schema name).toList.count '-' =
      schema.toList.count '-' + name.toList.count '-' := by
  simp [Table.identifier, String.toList_append, count_dash_plainOrQuoted]

theorem isSpace_of_startsPlain {c : Char} (h : startsPlain c = true) : isSpace c = false := by
  unfold startsPlain at h
  rcases Bool.or_eq_true _ _ |>.mp h with hlower | hline
  · refine Text.isSpace_of_isAlphanum ?_
    simp [Char.isAlphanum, Char.isAlpha, hlower]
  · rw [beq_iff_eq] at hline
    subst hline
    decide

/-- An identifier does not begin with space, whatever its names begin with. -/
theorem trimStart_identifier (schema name : String) :
    trimStart (Table.identifier schema name).toList = (Table.identifier schema name).toList := by
  have hfirst : ∃ c cs, (plainOrQuoted schema).toList = c :: cs ∧ isSpace c = false := by
    unfold plainOrQuoted
    split
    · next hplain =>
      have hname := (Bool.and_eq_true _ _ |>.mp hplain).1
      unfold isPlainName at hname
      split at hname
      · cases hname
      · next c cs hcs =>
        exact ⟨c, cs, hcs, isSpace_of_startsPlain (Bool.and_eq_true _ _ |>.mp hname).1⟩
    · exact ⟨'"', doubleQuotes schema.toList ++ ['"'], by simp [doubleQuoted], by decide⟩
  obtain ⟨c, cs, hcs, hspace⟩ := hfirst
  simp [Table.identifier, String.toList_append, hcs, trimStart, hspace]

/-- Something is left of an identifier without its quotes, the dot between the names. -/
theorem filter_identifier_ne_nil (schema name : String) :
    (Table.identifier schema name).toList.filter (· ≠ '"') ≠ [] := by
  refine List.ne_nil_of_mem (a := '.') ?_
  simp [Table.identifier, String.toList_append]

end Catalog

namespace Change

theorem alphanumeric_of_digits {s : String} (hne : s ≠ "")
    (h : ∀ c ∈ s.toList, c.isDigit = true) : StrongEtag.Alphanumeric s :=
  ⟨hne, fun c hc => by simp [Char.isAlphanum, h c hc]⟩

theorem alphanumeric_of_letters {s : String} (hne : s ≠ "")
    (h : ∀ c ∈ s.toList, c.isAlpha = true) : StrongEtag.Alphanumeric s :=
  ⟨hne, fun c hc => by simp [Char.isAlphanum, h c hc]⟩

/-- The text of a number consists of digits. -/
theorem alphanumeric_toString (n : Nat) : StrongEtag.Alphanumeric (toString n) := by
  have hdigits : (toString n).toList = Nat.toDigits 10 n := by
    simp [toString, Nat.repr]
  refine alphanumeric_of_digits (fun hempty => ?_) fun c hc => ?_
  · rw [hempty] at hdigits
    exact Nat.toDigits_ne_nil hdigits.symm
  · rw [hdigits] at hc
    exact Nat.isDigit_of_mem_toDigits (by decide) (by decide) hc

/-- A row that was cached for a table can be validated by every strong etag that is issued for it,
quoted or not, if neither name of the table holds a dash.  If one does, each of them is refused as
malformed. -/
theorem cached_rows_validate_iff (catalog : Catalog) (now schema name : String) {e : Event}
    (hid : e.id = (Catalog.Table.ofName schema name).id) {version : String}
    (hversion : e.newVersion = some version) (hnonempty : version ≠ "")
    (hdecimal : ∀ c ∈ version.toList, c.isDigit = true) {c : Cache} (hworking : c.store.Working)
    (hadded : (apply catalog now e c).1.added = true) :
    ∃ etag after, e.Produces catalog now etag ∧ after = (apply catalog now e c).2 ∧
      after.store.Stores etag.identity etag ∧
      ∀ (srid : Nat) (format strong : String), format ≠ "" →
        (∀ c ∈ format.toList, c.isAlpha = true) →
        (strong = (etag.strong (toString srid) format).token ∨
          strong = (etag.strong (toString srid) format).headerValue) →
        ((Cache.contains strong).run after).1 =
          if '-' ∈ schema.toList ∨ '-' ∈ name.toList then
            .error (.malformed (.segmentCount strong
              (4 + schema.toList.count '-' + name.toList.count '-')))
          else .ok true := by
  obtain ⟨etag, hproduces, hleads, hstores⟩ := apply_answers hadded
  refine ⟨etag, _, hproduces, rfl, hstores, fun srid format strong hformat hletters hstrong => ?_⟩
  obtain rfl : etag.version = version :=
    Option.some.inj (hproduces.newVersion.symm.trans hversion)
  have hcollection : etag.collection = Catalog.Table.identifier schema name := by
    rw [hproduces.collection, hid]
    rfl
  -- of the parts of a token only the collection can hold a dash, one for each of its names
  have hdashes := Catalog.count_dash_identifier schema name
  rw [← hcollection] at hdashes
  have htrim := Catalog.trimStart_identifier schema name
  have hbare := Catalog.filter_identifier_ne_nil schema name
  rw [← hcollection] at htrim hbare
  have hread := StrongEtag.decode_of_alphanumeric hstrong htrim hbare (alphanumeric_toString srid)
    (alphanumeric_of_letters hformat hletters) (alphanumeric_of_digits hnonempty hdecimal)
  rcases hread with ⟨hnone, collection, hdecode⟩ | ⟨hsome, hdecode⟩
  · have hno : ¬ ('-' ∈ schema.toList ∨ '-' ∈ name.toList) := by
      rw [← List.count_pos_iff, ← List.count_pos_iff]
      have hzero : etag.collection.toList.count '-' = 0 := hnone
      omega
    rw [if_neg hno, Cache.contains_eq_holds hdecode]
    exact Cache.holds_of_leads (working_apply hworking) hleads
  · have hyes : '-' ∈ schema.toList ∨ '-' ∈ name.toList := by
      rw [← List.count_pos_iff, ← List.count_pos_iff]
      have hpos : etag.collection.toList.count '-' ≠ 0 := hsome
      omega
    have hnumber : 4 + schema.toList.count '-' + name.toList.count '-' =
        4 + etag.collection.toList.count '-' := by omega
    rw [if_pos hyes, hnumber]
    exact Cache.contains_malformed hdecode _

/-- The new oak can be validated where it was cached. -/
theorem newOak_validates :
    ∃ after, after = (apply plants "" newOak { store := .bounded .empty }).2 ∧
      (apply plants "" newOak { store := .bounded .empty }).1.added = true ∧
      ((Cache.contains ((plantEtag "oak" "10").strong (toString 25832) "JSON").headerValue).run
        after).1 = .ok true := by
  have hadded : (apply plants "" newOak { store := .bounded .empty }).1.added = true := by
    rw [(takes_apply plants "" newOak .empty).answer_eq rfl]
    exact outcome_added_iff.mpr ⟨_, produces_newOak⟩
  obtain ⟨etag, after, hproduces, hafter, -, hvalidates⟩ :=
    cached_rows_validate_iff plants "" "public" "plants" (e := newOak) rfl
      (show newOak.newVersion = some "10" from rfl) (by decide) (by simp)
      (c := { store := .bounded .empty }) trivial hadded
  obtain rfl : etag = plantEtag "oak" "10" := hproduces.unique produces_newOak
  refine ⟨after, hafter, hadded, ?_⟩
  rw [hvalidates 25832 "JSON" _ (by decide) (by simp) (Or.inr rfl), if_neg (by decide)]

/-! ### A table with a dash in its name -/

/-- A table whose name has to be quoted. -/
def oldPlants : Catalog.Table :=
  (Catalog.Table.ofName "public" "old-plants").withIdColumn "id" .text

/-- An oak of that table that is new at version 10. -/
def newOldOak : Event :=
  { newOak with id := "public.\"old-plants\"", table := "old-plants" }

def oldOak : WeakEtag :=
  { plantEtag "oak" "10" with collection := "public.\"old-plants\"" }

theorem id_oldPlants : oldPlants.id = "public.\"old-plants\"" := by decide

theorem produces_newOldOak : newOldOak.Produces (.fixed [oldPlants]) "" oldOak := by
  have hrow : Json.parseMap newOldOak.row = .ok [("id", .string "oak")] := by cbv
  have htable : (Catalog.fixed [oldPlants]).lookup newOldOak.id = .ok (some oldPlants) := by
    show Except.ok (Catalog.firstNamed [oldPlants] newOldOak.id) = _
    simp [Catalog.firstNamed, Catalog.Table.answersTo, id_oldPlants, newOldOak]
  exact .intro (Or.inl rfl) hrow rfl htable rfl

/-- The oak is cached, and the strong etag that is issued for it is refused. -/
theorem oldOak_is_refused :
    newOldOak.id = (Catalog.Table.ofName "public" "old-plants").id ∧
      (apply (.fixed [oldPlants]) "" newOldOak { store := .bounded .empty }).1.added = true ∧
      newOldOak.Produces (.fixed [oldPlants]) "" oldOak ∧
      ((Cache.contains (oldOak.strong "25832" "JSON").token).run
          (apply (.fixed [oldPlants]) "" newOldOak { store := .bounded .empty }).2).1 =
        .error (.malformed (.segmentCount (oldOak.strong "25832" "JSON").token 5)) := by
  have hadded : (apply (.fixed [oldPlants]) "" newOldOak
      { store := .bounded .empty }).1.added = true := by
    rw [(takes_apply (.fixed [oldPlants]) "" newOldOak .empty).answer_eq rfl]
    exact outcome_added_iff.mpr ⟨_, produces_newOldOak⟩
  have hdecode : StrongEtag.decode (oldOak.strong "25832" "JSON").token =
      .error (.segmentCount (oldOak.strong "25832" "JSON").token 5) := by cbv
  exact ⟨by decide, hadded, produces_newOldOak, Cache.contains_malformed hdecode _⟩

end Change

end FreshTag
