/-
FreshTag/Proofs/Json/Grammar.lean

Which texts are numbers.  Every reader of a part of a number takes a part of the
grammar from the front of what is left (`Consumes`): digits, of which some are
gathered and the others skipped, an exponent with its sign, a fraction, and what
may stand behind whole digits.  So whatever is read as a number is one of the
grammar (`readSigned_consumes`), and a text that is read as a number has nothing
else in it (`numeral_of_ofText?`).  That every number of the grammar is read, or
is out of range, is `Numeral.settles`.
-/
import FreshTag.Proofs.Json.Readings

namespace FreshTag.Json

open FreshTag.Number

/-- What is gone from the front of a text is of the given kind. -/
def Consumes (part : List Char → Prop) (cs rest : List Char) : Prop :=
  ∃ used, part used ∧ cs = used ++ rest

theorem Consumes.mono {part part' : List Char → Prop} (h : ∀ used, part used → part' used)
    {cs rest : List Char} (hpart : Consumes part cs rest) : Consumes part' cs rest := by
  obtain ⟨used, hused, hcs⟩ := hpart
  exact ⟨used, h used hused, hcs⟩

theorem isDigit_of_digit? {c : Char} {d : Nat} (h : digit? c = some d) : c.isDigit = true :=
  (Option.ite_none_right_eq_some.mp h).1

theorem Digits.cons {c : Char} {cs : List Char} (hc : c.isDigit = true) (h : Digits cs) :
    Digits (c :: cs) :=
  List.forall_mem_cons.mpr ⟨hc, h⟩

section

variable {positive : Bool} {s k : Nat} {x : Binary64} {cs rest : List Char}

/-! ### Digits -/

theorem skipDigits_consumes (cs : List Char) :
    Consumes (fun ds => Digits ds ∧ (startsWithDigit cs = true → ds ≠ [])) cs
      (skipDigits cs).2 := by
  induction cs with
  | nil => exact ⟨[], ⟨nofun, nofun⟩, rfl⟩
  | cons c cs ih =>
    rw [skipDigits]
    split
    · next hc =>
      obtain ⟨ds, ⟨hds, -⟩, hcs⟩ := ih
      exact ⟨c :: ds, ⟨hds.cons hc, fun _ => List.cons_ne_nil c ds⟩, congrArg (c :: ·) hcs⟩
    · next hc => exact ⟨[], ⟨nofun, fun h => absurd h hc⟩, rfl⟩

/-- The digits that are gathered are counted. -/
theorem gather_consumes (s n : Nat) (cs : List Char) :
    Consumes (fun ds => Digits ds ∧ (gather s n cs).count = n + ds.length) cs
      (gather s n cs).rest := by
  induction cs generalizing s n with
  | nil => exact ⟨[], ⟨nofun, rfl⟩, rfl⟩
  | cons c cs ih =>
    have hnone : Consumes (fun ds => Digits ds ∧ n = n + ds.length) (c :: cs) (c :: cs) :=
      ⟨[], ⟨nofun, rfl⟩, rfl⟩
    rw [gather]
    split
    · next d hd =>
      split
      · obtain ⟨ds, ⟨hds, hcount⟩, hcs⟩ := ih (s * 10 + d) (n + 1)
        refine ⟨c :: ds, ⟨hds.cons (isDigit_of_digit? hd), ?_⟩, congrArg (c :: ·) hcs⟩
        rw [hcount, List.length_cons]
        omega
      · exact hnone
    · exact hnone

theorem gatherExponent_consumes (n : Nat) (cs : List Char) :
    Consumes Digits cs (gatherExponent n cs).2 := by
  induction cs generalizing n with
  | nil => exact ⟨[], nofun, rfl⟩
  | cons c cs ih =>
    rw [gatherExponent]
    split
    · next d hd =>
      have hc := isDigit_of_digit? hd
      split
      · obtain ⟨ds, hds, hcs⟩ := ih (n * 10 + d)
        exact ⟨c :: ds, hds.cons hc, congrArg (c :: ·) hcs⟩
      · exact ⟨[c], Digits.cons hc nofun, rfl⟩
    · exact ⟨[], nofun, rfl⟩

/-- Digits that were taken, and those that were skipped because they did not fit. -/
theorem Consumes.skipDigits (h : Consumes Digits cs rest) :
    Consumes (fun ds => Digits ds ∧ (startsWithDigit rest = true → ds ≠ [])) cs
      (skipDigits rest).2 := by
  obtain ⟨ds, hds, rfl⟩ := h
  obtain ⟨left, ⟨hleft, hne⟩, hrest⟩ := skipDigits_consumes rest
  refine ⟨ds ++ left, ⟨hds.append hleft, fun h => ?_⟩, ?_⟩
  · exact List.append_ne_nil_of_right_ne_nil ds (hne h)
  · rw [List.append_assoc, ← hrest]

/-! ### Behind whole digits -/

/-- An exponent has a digit behind its sign. -/
theorem exists_signed {k : Int} {r : Binary64 × List Char}
    (h : readExponent positive s k cs = .ok r) : ∃ sign c tail,
      (sign = [] ∨ sign = ['+'] ∨ sign = ['-']) ∧ c.isDigit = true ∧ cs = sign ++ c :: tail := by
  unfold readExponent at h
  split at h
  next up behind hsplit =>
  obtain ⟨sign, hsign, hcs⟩ : ∃ sign : List Char,
      (sign = [] ∨ sign = ['+'] ∨ sign = ['-']) ∧ cs = sign ++ behind := by
    split at hsplit
    · exact ⟨['+'], .inr (.inl rfl), congrArg ('+' :: ·) (Prod.mk.inj hsplit).2⟩
    · exact ⟨['-'], .inr (.inr rfl), congrArg ('-' :: ·) (Prod.mk.inj hsplit).2⟩
    · exact ⟨[], .inl rfl, (Prod.mk.inj hsplit).2⟩
  split at h
  · cases h
  · next c tail =>
    split at h
    · cases h
    · next d hd => exact ⟨sign, c, tail, hsign, isDigit_of_digit? hd, hcs⟩

theorem scaleBy_consumes {k : Int} {up : Bool} {g : Option Nat × List Char}
    (hg : Consumes Digits cs g.2) (h : scaleBy positive s k up g = .ok (x, rest)) :
    Consumes Digits cs rest := by
  rcases g with ⟨- | n, left⟩
  · rw [scaleBy] at h
    split at h
    · cases h
    · rw [← (Prod.mk.inj (Except.ok.inj h)).2]
      exact hg.skipDigits.mono fun _ hds => hds.1
  · obtain ⟨y, -, hrest⟩ := map_eq_ok h
    rw [← (Prod.mk.inj hrest).2]
    exact hg

/-- What may stand behind the mark of an exponent. -/
def Signed (cs : List Char) : Prop :=
  ∃ sign ds, (sign = [] ∨ sign = ['+'] ∨ sign = ['-']) ∧ Digits ds ∧ ds ≠ [] ∧ cs = sign ++ ds

theorem Consumes.marked {mark : Char} (h : Consumes Signed cs rest)
    (hmark : mark = 'e' ∨ mark = 'E') : Consumes Exponent (mark :: cs) rest := by
  obtain ⟨_, ⟨sign, ds, hsign, hds, hne, rfl⟩, rfl⟩ := h
  exact ⟨mark :: (sign ++ ds), .some hmark hsign hds hne, rfl⟩

theorem readExponent_consumes {k : Int} (h : readExponent positive s k cs = .ok (x, rest)) :
    Consumes Signed cs rest := by
  obtain ⟨sign, c, tail, hsign, hc, rfl⟩ := exists_signed h
  rw [readExponent_signed hsign hc] at h
  obtain ⟨ds, hds, rfl⟩ := scaleBy_consumes (gatherExponent_consumes _ tail) h
  exact ⟨sign ++ c :: ds, ⟨sign, c :: ds, hsign, hds.cons hc, List.cons_ne_nil c ds, rfl⟩,
    (List.append_assoc sign (c :: ds) rest).symm⟩

theorem readScale_consumes {k : Int} (h : readScale positive s k cs = .ok (x, rest)) :
    Consumes Exponent cs rest := by
  unfold readScale at h
  split at h
  · exact (readExponent_consumes h).marked (.inl rfl)
  · exact (readExponent_consumes h).marked (.inr rfl)
  · obtain ⟨y, -, h⟩ := bind_eq_ok h
    exact ⟨[], .none, (Prod.mk.inj (Except.ok.inj h)).2⟩

/-- What may stand behind the point of a fraction. -/
def Fraction (cs : List Char) : Prop :=
  ∃ ds t, Digits ds ∧ ds ≠ [] ∧ Exponent t ∧ cs = ds ++ t

theorem fraction_of_digits {behind : List Char}
    (hds : Consumes (fun ds => Digits ds ∧ ds ≠ []) cs behind)
    (ht : Consumes Exponent behind rest) : Consumes Fraction cs rest := by
  obtain ⟨ds, ⟨hds, hne⟩, rfl⟩ := hds
  obtain ⟨t, ht, rfl⟩ := ht
  exact ⟨ds ++ t, ⟨ds, t, hds, hne, ht, rfl⟩, (List.append_assoc ds t rest).symm⟩

theorem readFraction_consumes {k : Int} (h : readFraction positive s k cs = .ok (x, rest)) :
    Consumes Fraction cs rest := by
  have hgather := gather_consumes s 0 cs
  unfold readFraction at h
  simp only at h
  split at h
  · next hleft =>
    -- a digit that did not fit is a digit of the fraction all the same
    have hskip := (hgather.mono fun _ hds => hds.1).skipDigits
    exact fraction_of_digits (hskip.mono fun ds hds => ⟨hds.1, hds.2 hleft⟩) (readScale_consumes h)
  · split at h
    · cases h
    · next hcount =>
      refine fraction_of_digits (hgather.mono fun ds hds => ⟨hds.1, ?_⟩) (readScale_consumes h)
      rintro rfl
      exact hcount hds.2

theorem Consumes.point (h : Consumes Fraction cs rest) : Consumes Tail ('.' :: cs) rest := by
  obtain ⟨_, ⟨ds, t, hds, hne, ht, rfl⟩, rfl⟩ := h
  exact ⟨'.' :: (ds ++ t), .fraction hds hne ht, rfl⟩

theorem readLong_consumes (h : readLong positive s k cs = .ok (x, rest)) :
    Consumes Tail cs rest := by
  unfold readLong at h
  split at h
  · exact (readFraction_consumes h).point
  · exact (readScale_consumes h).mono fun _ => .exponent

theorem exists_float {r : Except Error (Binary64 × List Char)} {n : Number}
    (h : (fun (x, rest) => (Number.float x, rest)) <$> r = .ok (n, rest)) :
    ∃ x, r = .ok (x, rest) := by
  rcases r with e | ⟨x, behind⟩
  · cases h
  · obtain rfl := (Prod.mk.inj (Except.ok.inj h)).2
    exact ⟨x, rfl⟩

theorem readRest_consumes {n : Number} (h : readRest positive s cs = .ok (n, rest)) :
    Consumes Tail cs rest := by
  unfold readRest at h
  split at h
  · obtain ⟨x, h⟩ := exists_float h
    exact (readFraction_consumes h).point
  · obtain ⟨x, h⟩ := exists_float h
    exact ((readExponent_consumes h).marked (.inl rfl)).mono fun _ => .exponent
  · obtain ⟨x, h⟩ := exists_float h
    exact ((readExponent_consumes h).marked (.inr rfl)).mono fun _ => .exponent
  · exact ⟨[], .exponent .none, (Prod.mk.inj (Except.ok.inj h)).2⟩

/-! ### Numbers -/

/-- What may stand behind a minus sign. -/
def Unsigned (cs : List Char) : Prop :=
  ∃ ds t, Leading ds ∧ Tail t ∧ cs = ds ++ t

theorem unsigned_of_digits {behind : List Char} (hds : Consumes Leading cs behind)
    (ht : Consumes Tail behind rest) : Consumes Unsigned cs rest := by
  obtain ⟨ds, hds, rfl⟩ := hds
  obtain ⟨t, ht, rfl⟩ := ht
  exact ⟨ds ++ t, ⟨ds, t, hds, ht, rfl⟩, (List.append_assoc ds t rest).symm⟩

theorem leading_cons {c : Char} (hc : c.isDigit = true) (hzero : c ≠ '0')
    (h : Consumes Digits cs rest) : Consumes Leading (c :: cs) rest := by
  obtain ⟨ds, hds, rfl⟩ := h
  exact ⟨c :: ds, ⟨hds.cons hc, List.cons_ne_nil c ds, fun h => absurd (Option.some.inj h) hzero⟩,
    rfl⟩

theorem readNumber_consumes {n : Number} (h : readNumber positive cs = .ok (n, rest)) :
    Consumes Unsigned cs rest := by
  unfold readNumber at h
  split at h
  · cases h
  · split at h
    · cases h
    · exact unsigned_of_digits ⟨['0'], leading_toDigits 0, rfl⟩ (readRest_consumes h)
  · next c tail hzero =>
    split at h
    · cases h
    · next d hd =>
      have hc := isDigit_of_digit? hd
      have hgather := (gather_consumes d 0 tail).mono fun _ hds => hds.1
      -- of the digits behind the first one some may not have fitted
      simp only at h
      split at h
      · obtain ⟨x, h⟩ := exists_float h
        exact unsigned_of_digits
          (leading_cons hc hzero (hgather.skipDigits.mono fun _ hds => hds.1)) (readLong_consumes h)
      · exact unsigned_of_digits (leading_cons hc hzero hgather) (readRest_consumes h)

/-- What is read as a number is one of the grammar. -/
theorem readSigned_consumes {n : Number} (h : readSigned cs = .ok (n, rest)) :
    Consumes Numeral cs rest := by
  unfold readSigned at h
  split at h
  · obtain ⟨_, ⟨ds, t, hds, ht, rfl⟩, rfl⟩ := readNumber_consumes h
    exact ⟨'-' :: (ds ++ t), .negative hds ht, rfl⟩
  · refine (readNumber_consumes h).mono ?_
    rintro _ ⟨ds, t, hds, ht, rfl⟩
    exact .positive hds ht

/-- A text that is read as a number is one of the grammar. -/
theorem numeral_of_ofText? {s : String} {n : Number} (h : Number.ofText? s = some n) :
    Numeral s.toList := by
  rw [Number.ofText?_eq] at h
  split at h
  · next hread =>
    obtain ⟨used, hused, hs⟩ := readSigned_consumes hread
    rw [hs, List.append_nil]
    exact hused
  · cases h

end

end FreshTag.Json
