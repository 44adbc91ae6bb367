/-
FreshTag/Proofs/Change/Headers.lean

Which texts are read as pages.  A header is two runs of decimal digits, each
with a colon behind it, and what follows the second colon is the chunk, whatever
it holds.  `Denotes` says which number a run of digits stands for, and a number
is read from a part of the header exactly if the part stands for it and it has
32 bits (`header?_eq_some_iff`); else the part is empty, holds another
character, or stands for a greater number (`header?_eq_none_iff`).

A text is cut at its first two colons, if it has as many, and the two parts
before them decide whether a page is read or why not
(`headers_are_read_or_refused`).
-/
import FreshTag.Proofs.Change.Pages
import Mathlib

namespace FreshTag.Change.Page

/-! ### The parts of a header -/

/-- The characters are digits that stand for the number; zeros may stand in front. -/
inductive Denotes : List Char → Nat → Prop
  | one {c : Char} : c.isDigit = true → Denotes [c] (c.toNat - '0'.toNat)
  | more {cs : List Char} {n : Nat} {c : Char} : Denotes cs n → c.isDigit = true →
    Denotes (cs ++ [c]) (10 * n + (c.toNat - '0'.toNat))

/-- No number of 32 bits: empty, with a character that is no digit, or too great. -/
def Unreadable (cs : List Char) : Prop :=
  cs = [] ∨ (∃ c ∈ cs, c.isDigit = false) ∨ ∃ n, Denotes cs n ∧ Number.twoTo 32 ≤ n

section

variable {cs : List Char} {n : Nat}

theorem denotes_iff :
    Denotes cs n ↔ (cs ≠ [] ∧ ∀ c ∈ cs, c.isDigit = true) ∧ Nat.ofDigitChars 10 cs 0 = n := by
  constructor
  · intro h
    induction h with
    | one hc => simp [hc, Nat.ofDigitChars_cons]
    | @more cs n c h hc ih =>
      obtain ⟨⟨-, hcs⟩, rfl⟩ := ih
      refine ⟨⟨by simp, fun d hd => ?_⟩, ?_⟩
      · rcases List.mem_append.mp hd with hd | hd
        · exact hcs d hd
        · exact List.mem_singleton.mp hd ▸ hc
      · rw [Nat.ofDigitChars_append, Nat.ofDigitChars_cons]
        rfl
  · rintro ⟨⟨hne, hcs⟩, rfl⟩
    -- on the digits, of which the last one is the least
    induction cs using List.reverseRecOn with
    | nil => exact absurd rfl hne
    | append_singleton cs c ih =>
      obtain ⟨hcs, hc⟩ := List.forall_mem_append.mp hcs
      have hlast := hc c (List.mem_singleton_self c)
      rw [Nat.ofDigitChars_append, Nat.ofDigitChars_cons]
      rcases eq_or_ne cs [] with rfl | hnil
      · simpa using Denotes.one hlast
      · exact .more (ih hnil hcs) hlast

theorem Denotes.unique {m : Nat} (h : Denotes cs n) (h' : Denotes cs m) : n = m :=
  (denotes_iff.mp h).2.symm.trans (denotes_iff.mp h').2

theorem Denotes.colon_not_mem (h : Denotes cs n) : ':' ∉ cs := fun hmem =>
  absurd ((denotes_iff.mp h).1.2 ':' hmem) (by decide)

theorem header?_eq_some_iff : header? cs = some n ↔ Denotes cs n ∧ n < Number.twoTo 32 := by
  rw [denotes_iff, header?, ← List.all_eq_true]
  by_cases hdigits : cs ≠ [] ∧ cs.all Char.isDigit = true
  · rw [if_pos hdigits]
    simp only [hdigits, Option.ite_none_right_eq_some, Option.some.injEq]
    grind
  · rw [if_neg hdigits]
    exact iff_of_false nofun fun h => hdigits h.1.1

theorem header?_eq_none_iff : header? cs = none ↔ Unreadable cs := by
  constructor
  · intro h
    by_contra hreadable
    simp only [Unreadable, not_or, not_exists, not_and, Bool.not_eq_false, Nat.not_le] at hreadable
    obtain ⟨hne, hcs, hlt⟩ := hreadable
    have hdenotes := denotes_iff.mpr ⟨⟨hne, hcs⟩, rfl⟩
    rw [header?_eq_some_iff.mpr ⟨hdenotes, hlt _ hdenotes⟩] at h
    cases h
  · intro h
    rcases hread : header? cs with - | n
    · rfl
    obtain ⟨hdenotes, hlt⟩ := header?_eq_some_iff.mp hread
    obtain ⟨⟨hne, hcs⟩, -⟩ := denotes_iff.mp hdenotes
    rcases h with rfl | ⟨c, hc, hnot⟩ | ⟨m, hm, hle⟩
    · exact absurd rfl hne
    · exact absurd (hcs c hc) (Bool.eq_false_iff.mp hnot)
    · rw [hm.unique hdenotes] at hle
      omega

end

/-! ### Reading a page -/

/-- The parts of a text before its first two colons, and what follows them. -/
structure Cut (raw first second chunk : String) : Prop where
  eq_joined : raw = first ++ ":" ++ second ++ ":" ++ chunk
  first : ':' ∉ first.toList
  second : ':' ∉ second.toList

/-- What a text is read as, or why it is not read. -/
inductive Verdict (raw : String) : Except PageError Page → Prop
  | missing : raw.toList.count ':' < 2 →
    Verdict raw (.error (.missingHeader (String.ofList (raw.toList.take shownLength))))
  | notNumeric {first second chunk : String} : Cut raw first second chunk →
    Unreadable first.toList ∨ Unreadable second.toList →
    Verdict raw (.error (.notNumeric first second))
  | outOfRange {first second chunk : String} {count number : Nat} : Cut raw first second chunk →
    Denotes first.toList count → count < Number.twoTo 32 →
    Denotes second.toList number → number < Number.twoTo 32 →
    ¬ (1 ≤ number ∧ number ≤ count) → Verdict raw (.error (.outOfRange count number))
  | page {first second : String} {p : Page} : raw = first ++ ":" ++ second ++ ":" ++ p.chunk →
    Denotes first.toList p.count → Denotes second.toList p.number → p.Proper →
    Verdict raw (.ok p)

section

variable {raw first second chunk : String}

theorem missing_or_cut (raw : String) :
    raw.toList.count ':' < 2 ∨ ∃ first second chunk, Cut raw first second chunk := by
  rcases hfirst : Text.cutFirst ':' raw.toList with - | ⟨first, rest⟩
  · have hnone := List.count_eq_zero.mpr (Text.cutFirst_eq_none_iff.mp hfirst)
    exact .inl (by omega)
  obtain ⟨hraw, hcolon⟩ := Text.cutFirst_eq_some_iff.mp hfirst
  rcases hsecond : Text.cutFirst ':' rest with - | ⟨second, chunk⟩
  · have hnone := List.count_eq_zero.mpr (Text.cutFirst_eq_none_iff.mp hsecond)
    refine .inl ?_
    rw [hraw, List.count_append, List.count_cons_self, List.count_eq_zero.mpr hcolon, hnone]
    decide
  · obtain ⟨rfl, hcolon'⟩ := Text.cutFirst_eq_some_iff.mp hsecond
    refine .inr ⟨.ofList first, .ofList second, .ofList chunk, ?_, ?_, ?_⟩
    · apply String.toList_inj.mp
      simp [hraw]
    · rwa [String.toList_ofList]
    · rwa [String.toList_ofList]

theorem parse_of_missing (h : raw.toList.count ':' < 2) : parse raw =
    .error (.missingHeader (String.ofList (raw.toList.take shownLength))) := by
  unfold parse
  rcases hfirst : Text.cutFirst ':' raw.toList with - | ⟨first, rest⟩
  · rfl
  obtain ⟨hraw, -⟩ := Text.cutFirst_eq_some_iff.mp hfirst
  rw [hraw, List.count_append, List.count_cons_self] at h
  have hrest : Text.cutFirst ':' rest = none :=
    Text.cutFirst_eq_none_iff.mpr (List.count_eq_zero.mp (by omega))
  simp only [hrest]

theorem parse_of_cut (h : Cut raw first second chunk) : parse raw =
    match header? first.toList, header? second.toList with
    | some count, some number =>
      if 1 ≤ number ∧ number ≤ count then .ok { count, number, chunk }
      else .error (.outOfRange count number)
    | _, _ => .error (.notNumeric first second) := by
  have hraw : raw.toList = first.toList ++ ':' :: (second.toList ++ ':' :: chunk.toList) := by
    simp [h.eq_joined]
  unfold parse
  rw [hraw, Text.cutFirst_append h.first]
  simp only
  rw [Text.cutFirst_append h.second]
  rcases header? first.toList with - | count
  · simp only [String.ofList_toList]
  rcases hsecond : header? second.toList with - | number
  · simp only [hsecond, String.ofList_toList]
  · simp only [hsecond, String.ofList_toList]

theorem verdict_parse (raw : String) : Verdict raw (parse raw) := by
  rcases missing_or_cut raw with hmissing | ⟨first, second, chunk, hcut⟩
  · rw [parse_of_missing hmissing]
    exact .missing hmissing
  rw [parse_of_cut hcut]
  rcases hfirst : header? first.toList with - | count
  · exact .notNumeric hcut (.inl (header?_eq_none_iff.mp hfirst))
  rcases hsecond : header? second.toList with - | number
  · exact .notNumeric hcut (.inr (header?_eq_none_iff.mp hsecond))
  obtain ⟨hcount, hcountLt⟩ := header?_eq_some_iff.mp hfirst
  obtain ⟨hnumber, hnumberLt⟩ := header?_eq_some_iff.mp hsecond
  simp only
  split
  · next hrange => exact .page hcut.eq_joined hcount hnumber ⟨hrange.1, hrange.2, hcountLt⟩
  · next hrange => exact .outOfRange hcut hcount hcountLt hnumber hnumberLt hrange

theorem parse_of_verdict {r : Except PageError Page} (h : Verdict raw r) : parse raw = r := by
  cases h with
  | missing hmissing => exact parse_of_missing hmissing
  | notNumeric hcut hparts =>
    rw [parse_of_cut hcut]
    rcases hparts with hpart | hpart
    · rw [header?_eq_none_iff.mpr hpart]
    · rw [header?_eq_none_iff.mpr hpart]
      rcases header? _ with - | count <;> rfl
  | outOfRange hcut hcount hcountLt hnumber hnumberLt hrange =>
    rw [parse_of_cut hcut, header?_eq_some_iff.mpr ⟨hcount, hcountLt⟩,
      header?_eq_some_iff.mpr ⟨hnumber, hnumberLt⟩]
    exact if_neg hrange
  | page heq hcount hnumber hproper =>
    have hcut := Cut.mk heq hcount.colon_not_mem hnumber.colon_not_mem
    have hnumberLt := Nat.lt_of_le_of_lt hproper.le hproper.bounded
    rw [parse_of_cut hcut, header?_eq_some_iff.mpr ⟨hcount, hproper.bounded⟩,
      header?_eq_some_iff.mpr ⟨hnumber, hnumberLt⟩]
    exact if_pos ⟨hproper.pos, hproper.le⟩

theorem parse_eq_iff {r : Except PageError Page} : parse raw = r ↔ Verdict raw r :=
  ⟨fun h => h ▸ verdict_parse raw, parse_of_verdict⟩

/-- What is read as a page is one of its pages. -/
theorem proper_of_parse {p : Page} (h : parse raw = .ok p) : p.Proper := by
  cases parse_eq_iff.mp h with
  | page _ _ _ hproper => exact hproper

theorem parse_text_iff {p : Page} : parse p.text = .ok p ↔ p.Proper :=
  ⟨proper_of_parse, parse_text⟩

end

/-- A text is read as a page exactly if two runs of digits begin it, each with a colon behind it,
that stand for the count and the number of a proper page; the chunk is what follows, unchanged.  It
is refused for its missing header exactly if it has fewer than two colons, and for a part that is no
number exactly if one of the parts before its first two colons is empty, has a character that is no
digit, or stands for more than 32 bits; what is left is out of range.  So a page is read from its
own text exactly if it is proper. -/
theorem headers_are_read_or_refused (raw : String) :
    (∀ p : Page, parse raw = .ok p ↔
      ∃ first second, raw = first ++ ":" ++ second ++ ":" ++ p.chunk ∧
        Denotes first.toList p.count ∧ Denotes second.toList p.number ∧
        1 ≤ p.number ∧ p.number ≤ p.count ∧ p.count < Number.twoTo 32) ∧
    (∀ shown, parse raw = .error (.missingHeader shown) ↔
      raw.toList.count ':' < 2 ∧ shown = String.ofList (raw.toList.take 32)) ∧
    (∀ first second, parse raw = .error (.notNumeric first second) ↔
      ∃ chunk, Cut raw first second chunk ∧
        (Unreadable first.toList ∨ Unreadable second.toList)) ∧
    (∀ count number, parse raw = .error (.outOfRange count number) ↔
      ∃ first second chunk, Cut raw first second chunk ∧
        (Denotes first.toList count ∧ count < Number.twoTo 32) ∧
        (Denotes second.toList number ∧ number < Number.twoTo 32) ∧
        ¬ (1 ≤ number ∧ number ≤ count)) ∧
    ∀ p : Page, parse p.text = .ok p ↔
      1 ≤ p.number ∧ p.number ≤ p.count ∧ p.count < Number.twoTo 32 := by
  refine ⟨fun p => ?_, fun shown => ?_, fun first second => ?_, fun count number => ?_, fun p => ?_⟩
  · rw [parse_eq_iff]
    constructor
    · rintro (_ | _ | _ | ⟨heq, hcount, hnumber, hproper⟩)
      exact ⟨_, _, heq, hcount, hnumber, hproper.pos, hproper.le, hproper.bounded⟩
    · rintro ⟨first, second, heq, hcount, hnumber, hpos, hle, hbounded⟩
      exact .page heq hcount hnumber ⟨hpos, hle, hbounded⟩
  · rw [parse_eq_iff]
    constructor
    · rintro (hmissing | _ | _ | _)
      exact ⟨hmissing, rfl⟩
    · rintro ⟨hmissing, rfl⟩
      exact .missing hmissing
  · rw [parse_eq_iff]
    constructor
    · rintro (_ | ⟨hcut, hparts⟩ | _ | _)
      exact ⟨_, hcut, hparts⟩
    · rintro ⟨chunk, hcut, hparts⟩
      exact .notNumeric hcut hparts
  · rw [parse_eq_iff]
    constructor
    · rintro (_ | _ | ⟨hcut, hcount, hcountLt, hnumber, hnumberLt, hrange⟩ | _)
      exact ⟨_, _, _, hcut, ⟨hcount, hcountLt⟩, ⟨hnumber, hnumberLt⟩, hrange⟩
    · rintro ⟨first, second, chunk, hcut, ⟨hcount, hcountLt⟩, ⟨hnumber, hnumberLt⟩, hrange⟩
      exact .outOfRange hcut hcount hcountLt hnumber hnumberLt hrange
  · rw [parse_text_iff]
    exact ⟨fun h => ⟨h.pos, h.le, h.bounded⟩, fun ⟨hpos, hle, hbounded⟩ => ⟨hpos, hle, hbounded⟩⟩

-- Zeros in front of a number are read, and only the first two colons count.
example : parse "003:02:a:b" = .ok { count := 3, number := 2, chunk := "a:b" } := by
  rfl

end FreshTag.Change.Page
