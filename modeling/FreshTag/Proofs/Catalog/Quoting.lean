/-
FreshTag/Proofs/Catalog/Quoting.lean

Where the identifiers of tables are those that the server writes.  The trigger
publishes a change under the server's own quoting of schema and table, and the
catalog finds the table by an identifier of its own quoting, so the two have to
be the same text.

The server leaves a word bare if it is no keyword (`quoteIdent_eq`).  The catalog
goes by the same keywords, which are sorted and so may be searched by halves
(`foundByHalves_eq_contains`), but it takes `$` for a character of a word as
well.  So the two agree on every name but a `Dollared` one
(`plainOrQuoted_eq_quoteIdent_iff`), which no keyword is.

Bare, a dollared name is shorter than between the server's quotes.  The lengths
alone therefore tell the published identifier from both names that the table
answers to (`answersTo_publishedId`), and its changes are changes of an unknown
table (`identifiers_agree_iff`).
-/
import FreshTag.Catalog.Lookup
import FreshTag.Change.Processor
import FreshTag.Proofs.Database.Lexing
import Mathlib

namespace FreshTag.Catalog

open FreshTag.Change (Event etagOf featureId)
open FreshTag.Database (isPlain_of_startsPlain quoteIdent)

/-! ### Words -/

/-- A letter of a word. -/
def IsLetter (c : Char) : Prop :=
  ('a' ≤ c ∧ c ≤ 'z') ∨ c = '_'

/-- A digit of a word. -/
def IsDigit (c : Char) : Prop :=
  '0' ≤ c ∧ c ≤ '9'

/-- The name begins with a letter and goes on with letters, digits and characters of the list. -/
def WordOver (more : List Char) (name : String) : Prop :=
  ∃ c cs, name.toList = c :: cs ∧ IsLetter c ∧ ∀ d ∈ cs, (IsLetter d ∨ IsDigit d) ∨ d ∈ more

/-- The name holds a `$`, and would be a word if that were a character of words. -/
def Dollared (name : String) : Prop :=
  WordOver ['$'] name ∧ '$' ∈ name.toList

theorem startsPlain_iff {c : Char} : startsPlain c = true ↔ IsLetter c := by
  simp [startsPlain, IsLetter, Char.isLower, Char.le_def]

theorem isPlain_iff {c : Char} :
    isPlain c = true ↔ (IsLetter c ∨ IsDigit c) ∨ c ∈ ['$'] := by
  simp only [isPlain, IsLetter, IsDigit, Char.isLower, Char.isDigit, Char.le_def,
    Bool.or_eq_true, Bool.and_eq_true, decide_eq_true_eq, beq_iff_eq, List.mem_singleton]
  tauto

theorem isPlainName_iff {name : String} : isPlainName name = true ↔ WordOver ['$'] name := by
  unfold isPlainName WordOver
  rcases name.toList with - | ⟨c, cs⟩
  · simp
  rw [Bool.and_eq_true, List.all_eq_true, startsPlain_iff]
  constructor
  · rintro ⟨hc, hcs⟩
    exact ⟨c, cs, rfl, hc, fun d hd => isPlain_iff.mp (hcs d (.tail c hd))⟩
  · rintro ⟨_, _, heq, hc, hcs⟩
    obtain ⟨rfl, rfl⟩ := List.cons.inj heq
    refine ⟨hc, fun d hd => ?_⟩
    rcases List.mem_cons.mp hd with rfl | hd
    · exact isPlain_of_startsPlain (startsPlain_iff.mpr hc)
    · exact isPlain_iff.mpr (hcs d hd)

theorem not_isLetter_dollar : ¬ IsLetter '$' := by
  unfold IsLetter
  decide

theorem wordOver_nil_iff {name : String} :
    WordOver [] name ↔ WordOver ['$'] name ∧ '$' ∉ name.toList := by
  constructor
  · rintro ⟨c, cs, hname, hc, hcs⟩
    have hplain : ∀ d ∈ cs, IsLetter d ∨ IsDigit d := fun d hd =>
      (hcs d hd).resolve_right List.not_mem_nil
    refine ⟨⟨c, cs, hname, hc, fun d hd => .inl (hplain d hd)⟩, fun hdollar => ?_⟩
    rw [hname] at hdollar
    rcases List.mem_cons.mp hdollar with rfl | hdollar
    · exact not_isLetter_dollar hc
    · rcases hplain _ hdollar with h | h
      · exact not_isLetter_dollar h
      · exact absurd h.1 (by decide)
  · rintro ⟨⟨c, cs, hname, hc, hcs⟩, hdollar⟩
    refine ⟨c, cs, hname, hc, fun d hd => .inl ((hcs d hd).resolve_right fun h => hdollar ?_)⟩
    rw [hname, ← List.mem_singleton.mp h]
    exact .tail c hd

instance (name : String) : Decidable (WordOver ['$'] name) :=
  decidable_of_iff _ isPlainName_iff

instance (name : String) : Decidable (WordOver [] name) :=
  decidable_of_iff _ wordOver_nil_iff.symm

instance (name : String) : Decidable (Dollared name) :=
  inferInstanceAs (Decidable (_ ∧ _))

/-! ### Keywords -/

/-- The word is in the list, as a search by halves finds it. -/
def foundByHalves (words : List String) (word : String) : Bool :=
  match h : words.drop (words.length / 2) with
  | [] => false
  | middle :: upper =>
    if word < middle then foundByHalves (words.take (words.length / 2)) word
    else if middle < word then foundByHalves upper word
    else true
termination_by words.length
decreasing_by
  all_goals
    have hlength := congrArg List.length h
    simp only [List.length_drop, List.length_take, List.length_cons] at hlength ⊢
    omega

/-- In a sorted list a word can only stand on its own side of the middle. -/
theorem foundByHalves_eq_contains {words : List String} (hsorted : words.Pairwise (· < ·))
    (word : String) : foundByHalves words word = words.contains word := by
  rw [Bool.eq_iff_iff, List.contains_iff_mem]
  fun_induction foundByHalves words word with
  | case1 words hdrop =>
    have hlength := List.drop_eq_nil_iff.mp hdrop
    obtain rfl : words = [] := List.eq_nil_of_length_eq_zero (by omega)
    simp
  | case2 words middle upper hdrop hbelow ih =>
    rw [← List.take_append_drop (words.length / 2) words, hdrop] at hsorted
    obtain ⟨hlower, hupper, -⟩ := List.pairwise_append.mp hsorted
    have hmiddle : word ∉ words.drop (words.length / 2) := by
      rw [hdrop, List.mem_cons]
      rintro (rfl | hmem)
      · exact lt_irrefl _ hbelow
      · exact lt_asymm hbelow ((List.pairwise_cons.mp hupper).1 _ hmem)
    rw [ih hlower]
    conv_rhs => rw [← List.take_append_drop (words.length / 2) words, List.mem_append]
    exact (or_iff_left hmiddle).symm
  | case3 words middle upper hdrop hbelow habove ih =>
    rw [← List.take_append_drop (words.length / 2) words, hdrop] at hsorted
    obtain ⟨-, hupper, hcross⟩ := List.pairwise_append.mp hsorted
    have hlower : word ∉ words.take (words.length / 2) ++ [middle] := by
      rw [List.mem_append, List.mem_singleton]
      rintro (hmem | rfl)
      · exact lt_asymm habove (hcross _ hmem _ List.mem_cons_self)
      · exact lt_irrefl _ habove
    rw [ih (List.pairwise_cons.mp hupper).2]
    conv_rhs =>
      rw [← List.take_append_drop (words.length / 2) words, hdrop, List.append_cons,
        List.mem_append]
    exact (or_iff_right hlower).symm
  | case4 words middle upper hdrop hbelow habove =>
    obtain rfl : word = middle := le_antisymm (not_lt.mp habove) (not_lt.mp hbelow)
    have hmem : word ∈ words.drop (words.length / 2) := hdrop ▸ List.mem_cons_self
    exact iff_of_true rfl (List.mem_of_mem_drop hmem)

theorem keywords_sorted : keywords.Pairwise (· < ·) :=
  List.isChain_iff_pairwise.mp (by decide +kernel)

theorem not_mem_keywords_of_dollared {name : String} (h : Dollared name) : name ∉ keywords := by
  have hkeywords : ∀ word ∈ keywords, '$' ∉ word.toList := by decide +kernel
  exact fun hmem => hkeywords name hmem h.2

/-! ### Quotes -/

/-- A character as it stands between quotes. -/
def doubled (c : Char) : List Char :=
  if c = '"' then ['"', '"'] else [c]

theorem doubleQuotes_eq_flatMap (cs : List Char) : doubleQuotes cs = cs.flatMap doubled := by
  induction cs with
  | nil => rfl
  | cons c cs ih =>
    rw [doubleQuotes, List.flatMap_cons, doubled, ih]
    split <;> rfl

theorem length_lt_doubleQuoted (name : String) : name.length < (doubleQuoted name).length := by
  have hlength : ∀ cs, cs.length ≤ (doubleQuotes cs).length := by
    intro cs
    induction cs with
    | nil => exact le_rfl
    | cons c cs ih =>
      rw [doubleQuotes]
      split <;> simp only [List.length_cons] <;> omega
  have := hlength name.toList
  rw [String.length_toList] at this
  simp only [doubleQuoted, String.length_ofList, List.length_append, List.length_cons]
  omega

/-- What the server leaves bare and how it quotes the other names. -/
theorem quoteIdent_eq (name : String) :
    quoteIdent name = if WordOver [] name ∧ name ∉ keywords then name
      else String.ofList ('"' :: name.toList.flatMap doubled ++ ['"']) := by
  rw [← doubleQuotes_eq_flatMap]
  refine if_congr ?_ rfl rfl
  rw [wordOver_nil_iff, ← isPlainName_iff]
  simp

section

variable {name : String}

theorem plainOrQuoted_of_dollared (h : Dollared name) : plainOrQuoted name = name := by
  have hplain := isPlainName_iff.mpr h.1
  have hkeyword := not_mem_keywords_of_dollared h
  rw [plainOrQuoted, if_pos (by simp [hplain, hkeyword])]

theorem quoteIdent_of_dollared (h : Dollared name) : quoteIdent name = doubleQuoted name := by
  have hdollar : name.toList.contains '$' = true := List.contains_iff_mem.mpr h.2
  rw [quoteIdent, hdollar]
  simp

theorem plainOrQuoted_of_not_dollared (h : ¬ Dollared name) :
    plainOrQuoted name = quoteIdent name := by
  by_cases hplain : isPlainName name = true
  · have hdollar : '$' ∉ name.toList := fun hmem => h ⟨isPlainName_iff.mp hplain, hmem⟩
    simp [plainOrQuoted, quoteIdent, hplain, hdollar]
  · simp [plainOrQuoted, quoteIdent, hplain]

end

/-- The server never writes a name shorter than it is, and longer where it quotes it. -/
theorem length_le_quoteIdent (name : String) : name.length ≤ (quoteIdent name).length := by
  unfold quoteIdent
  split
  · exact le_rfl
  · exact (length_lt_doubleQuoted name).le

theorem length_lt_quoteIdent {name : String} (h : Dollared name) :
    name.length < (quoteIdent name).length := by
  rw [quoteIdent_of_dollared h]
  exact length_lt_doubleQuoted name

theorem plainOrQuoted_eq_quoteIdent_iff {name : String} :
    plainOrQuoted name = quoteIdent name ↔ ¬ Dollared name := by
  refine ⟨fun heq h => ?_, plainOrQuoted_of_not_dollared⟩
  rw [plainOrQuoted_of_dollared h] at heq
  exact (length_lt_quoteIdent h).ne (congrArg String.length heq)

/-! ### Identifiers -/

/-- The identifier under which the trigger publishes the changes of a table. -/
def publishedId (schema name : String) : String :=
  quoteIdent schema ++ "." ++ quoteIdent name

section

variable {schema name : String}

/-- Two names that the server quotes stand bare in a shorter text. -/
theorem append_ne_publishedId {left right : String} (hleft : left.length ≤ (quoteIdent schema).length)
    (hright : right.length ≤ (quoteIdent name).length)
    (h : left.length < (quoteIdent schema).length ∨ right.length < (quoteIdent name).length) :
    left ++ "." ++ right ≠ publishedId schema name := by
  intro heq
  have hlength := congrArg String.length heq
  simp only [publishedId, String.length_append] at hlength
  omega

theorem length_plainOrQuoted_le (name : String) :
    (plainOrQuoted name).length ≤ (quoteIdent name).length := by
  by_cases h : Dollared name
  · rw [plainOrQuoted_of_dollared h]
    exact length_le_quoteIdent name
  · rw [plainOrQuoted_of_not_dollared h]

theorem length_plainOrQuoted_lt (h : Dollared name) :
    (plainOrQuoted name).length < (quoteIdent name).length := by
  rw [plainOrQuoted_of_dollared h]
  exact length_lt_quoteIdent h

theorem identifier_eq_publishedId_iff :
    Table.identifier schema name = publishedId schema name ↔
      ¬ Dollared schema ∧ ¬ Dollared name := by
  rw [← not_or]
  constructor
  · intro heq h
    refine append_ne_publishedId (length_plainOrQuoted_le schema) (length_plainOrQuoted_le name)
      ?_ heq
    exact h.imp length_plainOrQuoted_lt length_plainOrQuoted_lt
  · intro h
    obtain ⟨hschema, hname⟩ := not_or.mp h
    rw [Table.identifier, publishedId, plainOrQuoted_of_not_dollared hschema,
      plainOrQuoted_of_not_dollared hname]

end

/-- The table is dollared in its schema or in its name. -/
def Table.HasDollar (t : Table) : Prop :=
  Dollared t.schema ∨ Dollared t.name

instance (t : Table) : Decidable t.HasDollar :=
  inferInstanceAs (Decidable (_ ∨ _))

section

variable {t : Table} (hid : t.id = Table.identifier t.schema t.name)

include hid

/-- A table answers to its published identifier, by whichever of its names, if none is dollared. -/
theorem answersTo_publishedId :
    t.answersTo (publishedId t.schema t.name) = true ↔ ¬ t.HasDollar := by
  simp only [Table.answersTo, Bool.or_eq_true, decide_eq_true_eq]
  rw [hid, identifier_eq_publishedId_iff, ← not_or]
  refine or_iff_left_of_imp fun heq h => ?_
  refine append_ne_publishedId (length_le_quoteIdent t.schema) (length_le_quoteIdent t.name) ?_ heq
  exact h.imp length_lt_quoteIdent length_lt_quoteIdent

theorem firstNamed_publishedId (before after : List Table) :
    firstNamed (before ++ t :: after) (publishedId t.schema t.name) =
      ((firstNamed before (publishedId t.schema t.name)).or
        (if t.HasDollar then none else some t)).or
          (firstNamed after (publishedId t.schema t.name)) := by
  have hself : [t].find? (·.answersTo (publishedId t.schema t.name)) =
      if t.HasDollar then none else some t := by
    by_cases h : t.HasDollar
    · have hmiss : t.answersTo (publishedId t.schema t.name) = false :=
        Bool.eq_false_iff.mpr fun hanswers => (answersTo_publishedId hid).mp hanswers h
      rw [List.find?_cons, hmiss, if_pos h, List.find?_nil]
    · rw [List.find?_cons, (answersTo_publishedId hid).mpr h, if_neg h]
  rw [firstNamed, List.append_cons, List.find?_append, List.find?_append, hself]
  rfl

end

/-! ### Changes of unknown tables -/

theorem firstNamed_eq_none_iff {tables : List Table} {name : String} :
    firstNamed tables name = none ↔ ∀ u ∈ tables, u.answersTo name = false := by
  simp [firstNamed, List.find?_eq_none]

theorem etagOf_eq_unknownTable_iff {catalog : Catalog} {now : String} {e : Event}
    {row : Json.Members} :
    etagOf catalog now e row = .error .unknownTable ↔
      e.newVersion.isSome = true ∧ catalog.lookup e.id = .ok none := by
  unfold etagOf
  rcases e.newVersion with - | version
  · simp
  rcases catalog.lookup e.id with cause | - | table
  · simp
  · simp
  · rcases hfeature : featureId table row with reason | id <;> simp [hfeature]

/-- Both sides go by the same keywords, which a search by halves tells from other words, and write
the same text for every name that is not dollared, and for no other.  So the identifier of a table
is the one that the trigger publishes exactly if neither schema nor name is dollared.  A list finds
a table by its published identifier in just these cases; otherwise, unless another table answers to
it, a version that began is one of an unknown table. -/
theorem identifiers_agree_iff (schema name : String) :
    (quoteIdent name = if WordOver [] name ∧ name ∉ keywords then name
      else String.ofList ('"' :: name.toList.flatMap doubled ++ ['"'])) ∧
    foundByHalves keywords name = keywords.contains name ∧
    (plainOrQuoted name = quoteIdent name ↔ ¬ Dollared name) ∧
    ((Table.ofName schema name).id = publishedId schema name ↔
      ¬ Dollared schema ∧ ¬ Dollared name) ∧
    ∀ t : Table, t.id = (Table.ofName schema name).id → t.schema = schema → t.name = name →
      ∀ (before after : List Table) (e : Event), e.id = publishedId schema name →
        (fixed (before ++ t :: after)).lookup e.id =
          .ok (((firstNamed before e.id).or
            (if t.HasDollar then none else some t)).or (firstNamed after e.id)) ∧
        ∀ now row, etagOf (fixed (before ++ t :: after)) now e row = .error .unknownTable ↔
          e.newVersion.isSome = true ∧ t.HasDollar ∧
            ∀ u ∈ before ++ after, u.answersTo e.id = false := by
  refine ⟨quoteIdent_eq name, foundByHalves_eq_contains keywords_sorted name,
    plainOrQuoted_eq_quoteIdent_iff, identifier_eq_publishedId_iff, ?_⟩
  rintro t hid rfl rfl before after e he
  have hfirst := firstNamed_publishedId hid before after
  rw [← he] at hfirst
  refine ⟨congrArg Except.ok hfirst, fun now row => ?_⟩
  have hlookup : (fixed (before ++ t :: after)).lookup e.id = .ok none ↔
      t.HasDollar ∧ ∀ u ∈ before ++ after, u.answersTo e.id = false := by
    show Except.ok (firstNamed (before ++ t :: after) e.id) = .ok none ↔ _
    rw [Except.ok.injEq, hfirst, Option.or_eq_none_iff, Option.or_eq_none_iff,
      firstNamed_eq_none_iff, firstNamed_eq_none_iff, List.forall_mem_append]
    by_cases h : t.HasDollar <;> simp [h]
  rw [etagOf_eq_unknownTable_iff, hlookup]

/-- The server quotes a name that stands bare in the catalog, so the catalog of its table does not
know the table of a row that was inserted. -/
theorem dollared_table_is_unknown :
    plainOrQuoted "a$b" = "a$b" ∧ quoteIdent "a$b" = "\"a$b\"" ∧
    (Table.ofName "public" "a$b").id = "public.a$b" ∧
    publishedId "public" "a$b" = "public.\"a$b\"" ∧
    etagOf (fixed [Table.ofName "public" "a$b"]) "Sun, 06 Nov 1994 08:49:37 GMT"
      { id := "public.\"a$b\"", schema := "public", table := "a$b", action := .insert,
        oldVersion := none, newVersion := some "10", md5 := "oak", row := "\x7b\x7d" } [] =
        .error .unknownTable := by
  refine ⟨by decide +kernel, by decide +kernel, by decide +kernel, by decide +kernel, ?_⟩
  rw [etagOf_eq_unknownTable_iff]
  exact ⟨rfl, congrArg Except.ok (firstNamed_eq_none_iff.mpr (by decide +kernel))⟩

end FreshTag.Catalog
