/-
FreshTag/Proofs/Json/Numerals.lean

What a printed number is read as.  A numeral is a run of digits that may go on
with a fraction and an exponent, with a minus sign or without; whatever ends a
number in a text follows it, reading a numeral takes all of it, and can fail
only because the number is out of range (`Numeral.settles`).  Whole numbers are
read back as they were (`reread_natural`, `reread_negative`).  The shortest text
of a floating-point number is a numeral too (`numeral_print`), but it may stand
for another number, as a number is not rounded from its exact decimal value.
-/
import FreshTag.Json.NumberReader
import FreshTag.Json.Printer

namespace FreshTag.Json

open FreshTag.Number

/-! ### What follows a number -/

/-- The text ends here, or the item or the member that it begins with does. -/
def Ends (rest : List Char) : Prop :=
  ∀ c ∈ rest.head?, c = ',' ∨ c = ']' ∨ c = '\x7d'

theorem ends_nil : Ends [] := nofun

theorem ends_cons {c : Char} (h : c = ',' ∨ c = ']' ∨ c = '\x7d') (cs : List Char) :
    Ends (c :: cs) := by
  rintro _ ⟨⟩
  exact h

theorem Ends.eq_nil_or_cons {rest : List Char} (h : Ends rest) :
    rest = [] ∨ ∃ c cs, rest = c :: cs ∧ (c = ',' ∨ c = ']' ∨ c = '\x7d') := by
  rcases rest with - | ⟨c, cs⟩
  · exact .inl rfl
  · exact .inr ⟨c, cs, rfl, h c rfl⟩

theorem Ends.startsWithDigit {rest : List Char} (h : Ends rest) : startsWithDigit rest = false := by
  rcases h.eq_nil_or_cons with rfl | ⟨c, cs, rfl, rfl | rfl | rfl⟩ <;> rfl

/-- Wherever the text ends, the reader takes all of it and says the same. -/
def Reads {α : Type} (read : List Char → Except Error (α × List Char)) (cs : List Char)
    (r : Except Error α) : Prop :=
  ∀ rest, Ends rest → read (cs ++ rest) = r.map (·, rest)

/-- The reader takes the text, or the number is out of range. -/
def Settles {α : Type} (read : List Char → Except Error (α × List Char)) (cs : List Char) : Prop :=
  ∃ r, (∀ e, r = .error e → e = .numberOutOfRange) ∧ Reads read cs r

theorem Settles.map {α β : Type} {read : List Char → Except Error (α × List Char)}
    {read' : List Char → Except Error (β × List Char)} {cs cs' : List Char} (h : Settles read cs)
    (f : α → β) (hread : ∀ rest, Ends rest →
      read' (cs' ++ rest) = (fun (x, rest) => (f x, rest)) <$> read (cs ++ rest)) :
    Settles read' cs' := by
  obtain ⟨r, hrange, hr⟩ := h
  refine ⟨r.map f, fun e he => hrange e ?_, fun rest hrest => ?_⟩
  · rcases r with e' | x
    · exact congrArg Except.error (Except.error.inj he)
    · cases he
  · rw [hread rest hrest, hr rest hrest]
    rcases r with e' | x <;> rfl

/-! ### Digits -/

/-- All characters are digits. -/
def Digits (cs : List Char) : Prop :=
  ∀ c ∈ cs, c.isDigit = true

theorem digits_toDigits (n : Nat) : Digits (Nat.toDigits 10 n) :=
  fun _ hc => Nat.isDigit_of_mem_toDigits (by decide) (by decide) hc

theorem digits_replicate (n : Nat) : Digits (List.replicate n '0') :=
  fun c hc => by rw [List.eq_of_mem_replicate hc]; decide

theorem Digits.append {cs ds : List Char} (h : Digits cs) (h' : Digits ds) : Digits (cs ++ ds) :=
  fun c hc => (List.mem_append.mp hc).elim (h c) (h' c)

theorem Digits.tail {c : Char} {cs : List Char} (h : Digits (c :: cs)) : Digits cs :=
  fun d hd => h d (List.mem_cons_of_mem c hd)

theorem Digits.head {c : Char} {cs : List Char} (h : Digits (c :: cs)) : c.isDigit = true :=
  h c List.mem_cons_self

theorem startsWithDigit_append {cs t : List Char} (hcs : Digits cs) (hne : cs ≠ []) :
    startsWithDigit (cs ++ t) = true := by
  obtain ⟨c, cs, rfl⟩ := List.exists_cons_of_ne_nil hne
  exact hcs.head

theorem digit?_of_isDigit {c : Char} (h : c.isDigit = true) :
    digit? c = some (c.toNat - 0x30) := by
  simp [digit?, h]

theorem digit?_of_not_isDigit {c : Char} (h : c.isDigit = false) : digit? c = none := by
  simp [digit?, h]

theorem skipDigits_append {cs t : List Char} (hcs : Digits cs) (ht : startsWithDigit t = false) :
    skipDigits (cs ++ t) = (cs.length, t) := by
  induction cs with
  | nil =>
    rcases t with - | ⟨c, t⟩
    · rfl
    · have hc : c.isDigit = false := ht
      simp [skipDigits, hc]
  | cons c cs ih => simp [skipDigits, hcs.head, ih hcs.tail]

theorem gather_stops {t : List Char} (ht : startsWithDigit t = false) (s n : Nat) :
    gather s n t = ⟨s, n, t⟩ := by
  rcases t with - | ⟨c, t⟩
  · rfl
  · rw [gather, digit?_of_not_isDigit ht]

/-- Of the digits in front some fit the significand; what follows them is not looked at. -/
theorem exists_gather {cs : List Char} (hcs : Digits cs) (s n : Nat) :
    ∃ s' n' left, Digits left ∧ (left = [] → n' = n + cs.length) ∧
      ∀ t, startsWithDigit t = false → gather s n (cs ++ t) = ⟨s', n', left ++ t⟩ := by
  -- on the digits; from the first that does not fit all of them are left
  induction cs generalizing s n with
  | nil => exact ⟨s, n, [], nofun, fun _ => rfl, fun t ht => gather_stops ht s n⟩
  | cons c cs ih =>
    by_cases hfits : s * 10 + (c.toNat - 0x30) < twoTo 64
    · obtain ⟨s', n', left, hleft, hcount, hgather⟩ := ih hcs.tail (s * 10 + (c.toNat - 0x30)) (n + 1)
      refine ⟨s', n', left, hleft, fun h => ?_, fun t ht => ?_⟩
      · rw [hcount h, List.length_cons]
        omega
      · rw [List.cons_append, gather, digit?_of_isDigit hcs.head]
        simp only [if_pos hfits]
        exact hgather t ht
    · refine ⟨s, n, c :: cs, hcs, nofun, fun t _ => ?_⟩
      rw [List.cons_append, gather, digit?_of_isDigit hcs.head]
      simp only [if_neg hfits]

/-- Digits of a number that fits are all taken. -/
theorem gather_of_lt {cs t : List Char} (hcs : Digits cs) (ht : startsWithDigit t = false)
    {s : Nat} (n : Nat) (h : Nat.ofDigitChars 10 cs s < twoTo 64) :
    gather s n (cs ++ t) = ⟨Nat.ofDigitChars 10 cs s, n + cs.length, t⟩ := by
  induction cs generalizing s n with
  | nil => exact gather_stops ht s n
  | cons c cs ih =>
    have hval : '0'.toNat = 0x30 := rfl
    rw [Nat.ofDigitChars_cons, hval, Nat.mul_comm] at h ⊢
    -- the digits that follow only make the number greater
    have hfits : s * 10 + (c.toNat - 0x30) < twoTo 64 := by
      refine Nat.lt_of_le_of_lt ?_ h
      rw [Nat.ofDigitChars_eq_ofDigitChars_zero]
      exact Nat.le_trans (Nat.le_mul_of_pos_left _ (Nat.pow_pos (by decide)))
        (Nat.le_add_right ..)
    rw [List.cons_append, gather, digit?_of_isDigit hcs.head]
    simp only [if_pos hfits]
    rw [ih hcs.tail (n + 1) h, List.length_cons, Nat.add_right_comm, Nat.add_assoc]

/-! ### Numerals -/

theorem scale_error {positive : Bool} {s : Nat} {k : Int} {e : Error}
    (h : scale positive s k = .error e) : e = .numberOutOfRange := by
  unfold scale at h
  grind

/-- What may stand behind the digits of a fraction: an exponent, or nothing. -/
inductive Exponent : List Char → Prop
  | none : Exponent []
  | some {mark : Char} {sign ds : List Char} : mark = 'e' ∨ mark = 'E' →
    sign = [] ∨ sign = ['+'] ∨ sign = ['-'] → Digits ds → ds ≠ [] →
    Exponent (mark :: (sign ++ ds))

/-- What may stand behind the digits of a number: a fraction with or without an exponent, an
exponent alone, or nothing. -/
inductive Tail : List Char → Prop
  | fraction {ds t : List Char} : Digits ds → ds ≠ [] → Exponent t → Tail ('.' :: (ds ++ t))
  | exponent {t : List Char} : Exponent t → Tail t

/-- The digits of a number: one digit, or several of which the first is not zero. -/
structure Leading (ds : List Char) : Prop where
  digits : Digits ds
  nonempty : ds ≠ []
  single : ds.head? = some '0' → ds = ['0']

theorem Exponent.startsWithDigit {t : List Char} (h : Exponent t) {rest : List Char}
    (hrest : Ends rest) : startsWithDigit (t ++ rest) = false := by
  cases h with
  | none => exact hrest.startsWithDigit
  | some hmark => rcases hmark with rfl | rfl <;> rfl

theorem Tail.startsWithDigit {t : List Char} (h : Tail t) {rest : List Char}
    (hrest : Ends rest) : startsWithDigit (t ++ rest) = false := by
  cases h with
  | fraction => rfl
  | exponent h => exact h.startsWithDigit hrest

/-- The digits of an exponent are taken, or are too many; what follows them is not looked at. -/
theorem exists_gatherExponent {cs : List Char} (hcs : Digits cs) (n : Nat) :
    ∃ n' left, Digits left ∧ (n'.isSome → left = []) ∧
      ∀ t, startsWithDigit t = false → gatherExponent n (cs ++ t) = (n', left ++ t) := by
  induction cs generalizing n with
  | nil =>
    refine ⟨some n, [], nofun, fun _ => rfl, fun t ht => ?_⟩
    rcases t with - | ⟨c, t⟩
    · rfl
    · rw [List.nil_append, gatherExponent, digit?_of_not_isDigit ht]
  | cons c cs ih =>
    by_cases hfits : n * 10 + (c.toNat - 0x30) < twoTo 31
    · obtain ⟨n', left, hleft, hsome, hgather⟩ := ih hcs.tail (n * 10 + (c.toNat - 0x30))
      refine ⟨n', left, hleft, hsome, fun t ht => ?_⟩
      rw [List.cons_append, gatherExponent, digit?_of_isDigit hcs.head]
      simp only [if_pos hfits]
      exact hgather t ht
    · refine ⟨none, cs, hcs.tail, nofun, fun t _ => ?_⟩
      rw [List.cons_append, gatherExponent, digit?_of_isDigit hcs.head]
      simp only [if_neg hfits]

/-- What a number is read as where the digits of its exponent are gathered. -/
def scaleBy (positive : Bool) (s : Nat) (k : Int) (up : Bool) :
    Option Nat × List Char → Except Error (Binary64 × List Char)
  | (some n, rest) => (scale positive s (if up then k + n else k - n)).map (·, rest)
  | (none, rest) =>
    if up && s != 0 then .error .numberOutOfRange
    else .ok (Binary64.zero !positive, (skipDigits rest).2)

theorem readScale_mark {mark : Char} (hmark : mark = 'e' ∨ mark = 'E') (positive : Bool) (s : Nat)
    (k : Int) (cs : List Char) :
    readScale positive s k (mark :: cs) = readExponent positive s k cs := by
  rcases hmark with rfl | rfl <;> rfl

theorem readExponent_signed {sign : List Char} (hsign : sign = [] ∨ sign = ['+'] ∨ sign = ['-'])
    {c : Char} (hc : c.isDigit = true) (positive : Bool) (s : Nat) (k : Int) (cs : List Char) :
    readExponent positive s k (sign ++ c :: cs) =
      scaleBy positive s k (sign != ['-']) (gatherExponent (c.toNat - 0x30) cs) := by
  rcases hsign with rfl | rfl | rfl
  · -- a digit is no sign
    have hplus : c ≠ '+' := by
      rintro rfl
      exact absurd hc (by decide)
    have hminus : c ≠ '-' := by
      rintro rfl
      exact absurd hc (by decide)
    unfold readExponent
    split
    next up cs' hsign =>
    simp [hplus, hminus] at hsign
    obtain ⟨rfl, rfl⟩ := hsign
    simp only [digit?_of_isDigit hc]
    rfl
  · simp only [readExponent, List.cons_append, List.nil_append, digit?_of_isDigit hc]
    rfl
  · simp only [readExponent, List.cons_append, List.nil_append, digit?_of_isDigit hc]
    rfl

/-- Behind the digits an exponent is taken, if there is one. -/
theorem settles_exponent {t : List Char} (ht : Exponent t) (positive : Bool) (s : Nat) (k : Int) :
    Settles (readScale positive s k) t := by
  cases ht with
  | none =>
    refine ⟨scale positive s k, fun _ => scale_error, fun rest hrest => ?_⟩
    rcases hrest.eq_nil_or_cons with rfl | ⟨c, cs, rfl, rfl | rfl | rfl⟩ <;> rfl
  | @some mark sign ds hmark hsign hds hne =>
    obtain ⟨c, ds, rfl⟩ := List.exists_cons_of_ne_nil hne
    have hread : ∀ rest, readScale positive s k (mark :: (sign ++ c :: ds) ++ rest) =
        scaleBy positive s k (sign != ['-']) (gatherExponent (c.toNat - 0x30) (ds ++ rest)) := by
      intro rest
      rw [List.cons_append, List.append_assoc, List.cons_append, readScale_mark hmark,
        readExponent_signed hsign hds.head]
    obtain ⟨n, left, hleft, hsome, hgather⟩ := exists_gatherExponent hds.tail (c.toNat - 0x30)
    -- an exponent of too many digits decides by its sign alone, and the rest of it is skipped
    rcases n with - | n
    · refine ⟨if (sign != ['-']) && s != 0 then .error .numberOutOfRange
        else .ok (Binary64.zero !positive), fun e he => ?_, fun rest hrest => ?_⟩
      · split at he
        · exact (Except.error.inj he).symm
        · cases he
      · rw [hread, hgather rest hrest.startsWithDigit]
        simp only [scaleBy, skipDigits_append hleft hrest.startsWithDigit]
        split <;> rfl
    · refine ⟨scale positive s (if sign != ['-'] then k + n else k - n), fun _ => scale_error,
        fun rest hrest => ?_⟩
      rw [hread, hgather rest hrest.startsWithDigit, hsome rfl]
      rfl

/-- A fraction is taken, and an exponent behind it. -/
theorem settles_fraction {ds t : List Char} (hds : Digits ds) (hne : ds ≠ []) (ht : Exponent t)
    (positive : Bool) (s : Nat) (k : Int) : Settles (readFraction positive s k) (ds ++ t) := by
  obtain ⟨s', n', left, hleft, hcount, hgather⟩ := exists_gather hds s 0
  obtain ⟨r, hrange, hreads⟩ := settles_exponent ht positive s' (k - n')
  refine ⟨r, hrange, fun rest hrest => ?_⟩
  rw [← hreads rest hrest, List.append_assoc, readFraction, hgather _ (ht.startsWithDigit hrest)]
  -- digits of the fraction that do not fit are skipped
  rcases left with - | ⟨c, left⟩
  · have hpos : n' ≠ 0 := by
      rw [hcount rfl, Nat.zero_add]
      exact fun h => hne (List.length_eq_zero_iff.mp h)
    simp only [List.nil_append, ht.startsWithDigit hrest, hpos]
    rfl
  · have hstarts : startsWithDigit (c :: left ++ (t ++ rest)) = true :=
      startsWithDigit_append hleft (List.cons_ne_nil c left)
    simp only [hstarts, if_true, skipDigits_append hleft (ht.startsWithDigit hrest)]

theorem readRest_ends {rest : List Char} (hrest : Ends rest) (positive : Bool) (s : Nat) :
    readRest positive s rest = .ok (wholeNumber positive s, rest) := by
  rcases hrest.eq_nil_or_cons with rfl | ⟨c, cs, rfl, rfl | rfl | rfl⟩ <;> rfl

/-- Behind a whole number that fits. -/
theorem settles_rest {t : List Char} (ht : Tail t) (positive : Bool) (s : Nat) :
    Settles (readRest positive s) t := by
  cases ht with
  | fraction hds hne ht =>
    exact (settles_fraction hds hne ht positive s 0).map Number.float fun _ _ => rfl
  | exponent ht =>
    rcases ht with - | ⟨hmark, hsign, hds, hne⟩
    · exact ⟨.ok (wholeNumber positive s), nofun, fun _ hrest => readRest_ends hrest positive s⟩
    · refine (settles_exponent (.some hmark hsign hds hne) positive s 0).map Number.float
        fun _ _ => ?_
      rcases hmark with rfl | rfl <;> rfl

theorem readLong_exponent {t : List Char} (ht : Exponent t) {rest : List Char} (hrest : Ends rest)
    (positive : Bool) (s k : Nat) :
    readLong positive s k (t ++ rest) = readScale positive s k (t ++ rest) := by
  rcases ht with - | ⟨rfl | rfl, -, -, -⟩
  · rcases hrest.eq_nil_or_cons with rfl | ⟨c, cs, rfl, rfl | rfl | rfl⟩ <;> rfl
  · rfl
  · rfl

/-- Behind a whole number that does not fit. -/
theorem settles_long {t : List Char} (ht : Tail t) (positive : Bool) (s k : Nat) :
    Settles (readLong positive s k) t := by
  cases ht with
  | fraction hds hne ht => exact settles_fraction hds hne ht positive s k
  | exponent ht =>
    obtain ⟨r, hrange, hreads⟩ := settles_exponent ht positive s k
    refine ⟨r, hrange, fun rest hrest => ?_⟩
    rw [← hreads rest hrest, readLong_exponent ht hrest]

theorem readNumber_zero (positive : Bool) {t : List Char} (ht : startsWithDigit t = false) :
    readNumber positive ('0' :: t) = readRest positive 0 t := by
  simp [readNumber, ht]

theorem readNumber_digit (positive : Bool) {c : Char} (hc : c.isDigit = true) (hzero : c ≠ '0')
    (t : List Char) : readNumber positive (c :: t) =
      if startsWithDigit (gather (c.toNat - 0x30) 0 t).rest then
        (fun (x, rest) => (Number.float x, rest)) <$>
          readLong positive (gather (c.toNat - 0x30) 0 t).significand
            (skipDigits (gather (c.toNat - 0x30) 0 t).rest).1
            (skipDigits (gather (c.toNat - 0x30) 0 t).rest).2
      else readRest positive (gather (c.toNat - 0x30) 0 t).significand
        (gather (c.toNat - 0x30) 0 t).rest := by
  rw [readNumber, digit?_of_isDigit hc]
  exact hzero

/-- A numeral is taken. -/
theorem settles_number {ds t : List Char} (hds : Leading ds) (ht : Tail t) (positive : Bool) :
    Settles (readNumber positive) (ds ++ t) := by
  obtain ⟨c, ds, rfl⟩ := List.exists_cons_of_ne_nil hds.nonempty
  by_cases hzero : c = '0'
  · subst hzero
    obtain rfl : ds = [] := (List.cons.inj (hds.single rfl)).2
    refine (settles_rest ht positive 0).map id fun rest hrest => ?_
    exact (readNumber_zero positive (ht.startsWithDigit hrest)).trans (id_map _).symm
  · obtain ⟨s, n, left, hleft, -, hgather⟩ := exists_gather hds.digits.tail (c.toNat - 0x30) 0
    have hread : ∀ rest, Ends rest → readNumber positive (c :: ds ++ t ++ rest) =
        if startsWithDigit (left ++ (t ++ rest)) then
          (fun (x, rest) => (Number.float x, rest)) <$>
            readLong positive s (skipDigits (left ++ (t ++ rest))).1
              (skipDigits (left ++ (t ++ rest))).2
        else readRest positive s (left ++ (t ++ rest)) := by
      intro rest hrest
      rw [List.cons_append, List.cons_append, List.append_assoc,
        readNumber_digit positive hds.digits.head hzero, hgather _ (ht.startsWithDigit hrest)]
    -- with digits left over the number is no whole number, whatever follows
    rcases left with - | ⟨d, left⟩
    · refine (settles_rest ht positive s).map id fun rest hrest => ?_
      rw [hread rest hrest, List.nil_append, ht.startsWithDigit hrest]
      exact (id_map _).symm
    · refine (settles_long ht positive s (d :: left).length).map Number.float fun rest hrest => ?_
      rw [hread rest hrest, startsWithDigit_append hleft (List.cons_ne_nil d left), if_pos rfl,
        skipDigits_append hleft (ht.startsWithDigit hrest)]

/-! ### The digits of whole numbers -/

theorem Leading.head?_append {ds : List Char} (h : Leading ds) (t : List Char) :
    (ds ++ t).head? = ds.head? := by
  obtain ⟨c, cs, rfl⟩ := List.exists_cons_of_ne_nil h.nonempty
  rfl

theorem eq_zero_of_toDigits {n : Nat} (h : Nat.toDigits 10 n = ['0']) : n = 0 := by
  have hvalue := @Nat.ofDigitChars_ten_toDigits n
  rw [h] at hvalue
  exact hvalue.symm

theorem leading_toDigits (n : Nat) : Leading (Nat.toDigits 10 n) := by
  refine ⟨digits_toDigits n, Nat.toDigits_ne_nil, ?_⟩
  induction n using Nat.base_induction 10 (by decide) with
  | single m hm =>
    rw [Nat.toDigits_of_lt_base hm]
    exact fun h => congrArg (fun c => [c]) (Option.some.inj h)
  | digit m k hk hm ih =>
    rw [← Nat.toDigits_append_toDigits (by decide) hm hk]
    intro h
    -- more digits than one do not begin with a zero
    rw [Leading.head?_append ⟨digits_toDigits m, Nat.toDigits_ne_nil, ih⟩] at h
    exact absurd (eq_zero_of_toDigits (ih h)) (Nat.ne_of_gt hm)

theorem Leading.take {ds : List Char} (h : Leading ds) {k : Nat} (hk : 0 < k) :
    Leading (ds.take k) where
  digits c hc := h.digits c (List.mem_of_mem_take hc)
  nonempty hnil := by
    rcases List.take_eq_nil_iff.mp hnil with hzero | hzero
    · omega
    · exact h.nonempty hzero
  single hzero := by
    rw [List.head?_take, if_neg (by omega)] at hzero
    rw [h.single hzero, List.take_of_length_le (by simp; omega)]

/-! ### The shortest text of a floating-point number -/

theorem interval_pos {x : Binary64} (hx : x.mantissa ≠ 0) : 0 < x.interval.1 := by
  have hlow : 0 < if x.mantissa = twoTo 52 ∧ Binary64.leastExponent < x.exponent
      then 4 * x.mantissa - 1 else 4 * x.mantissa - 2 := by
    split <;> omega
  unfold Binary64.interval
  simp only
  split
  · exact Nat.mul_pos hlow (twoTo_pos _)
  · exact hlow

theorem tenShifted_pos {num : Nat} (h : 0 < num) (den : Nat) (k : Int) :
    0 < (Binary64.tenShifted num den k).1 := by
  unfold Binary64.tenShifted
  split
  · exact h
  · exact Nat.mul_pos h (tenTo_pos _)

/-- Zero is not in the interval of a number that is not zero. -/
theorem onGrid?_digits {tie : Tie} {x : Binary64} (hx : x.mantissa ≠ 0) {k : Int} {d : Decimal}
    (h : Binary64.onGrid? tie x k = some d) : d.digits ≠ 0 := by
  have hlow := tenShifted_pos (interval_pos hx) x.interval.2.2.2 k
  unfold Binary64.onGrid? at h
  grind

theorem firstHit_digits {tie : Tie} {x : Binary64} (hx : x.mantissa ≠ 0) {top : Int}
    {ns : List Nat} {d : Decimal} (h : Binary64.firstHit tie x top ns = some d) :
    d.digits ≠ 0 := by
  induction ns with
  | nil => cases h
  | cons n ns ih =>
    rw [Binary64.firstHit] at h
    split at h
    · next hit =>
      obtain rfl := Option.some.inj h
      exact onGrid?_digits hx hit
    · exact ih h

theorem stripZeros_digits (fuel : Nat) {d : Decimal} (h : d.digits ≠ 0) :
    (d.stripZeros fuel).digits ≠ 0 := by
  induction fuel generalizing d with
  | zero => exact h
  | succ fuel ih =>
    rw [Decimal.stripZeros]
    split
    · next hzero =>
      exact ih (show d.digits / 10 ≠ 0 by omega)
    · exact h

/-- The shortest decimal has no digit zero in front. -/
theorem shortest_digits (tie : Tie) (x : Binary64) :
    (x.shortest tie).digits ≠ 0 ∨ x.shortest tie = ⟨0, 0⟩ := by
  unfold Binary64.shortest
  split
  · exact .inr rfl
  · next hx =>
    simp only
    split
    · next hit => exact .inl (stripZeros_digits 17 (firstHit_digits hx hit))
    · exact .inr rfl

/-- The shortest text of a number is its sign and digits, with what may stand behind them. -/
theorem exists_numeral (x : Binary64) :
    ∃ ds t, x.scientificText = x.signText ++ (ds ++ t) ∧ Leading ds ∧ Tail t := by
  have hzeroes : Tail ['.', '0'] :=
    .fraction (leading_toDigits 0).digits (List.cons_ne_nil _ _) .none
  unfold Binary64.scientificText
  simp only
  have hshortest := shortest_digits .toEven x
  generalize x.shortest .toEven = d at hshortest
  have hds := leading_toDigits d.digits
  have hlength : 0 < (Nat.toDigits 10 d.digits).length := List.length_pos_iff.mpr hds.nonempty
  split
  · exact ⟨['0'], _, rfl, leading_toDigits 0, hzeroes⟩
  split
  · -- a whole number, with the zeros that the digits do not show
    refine ⟨Nat.toDigits 10 d.digits ++ List.replicate d.exponent.toNat '0', _, rfl,
      ⟨hds.digits.append (digits_replicate _), by simp [hds.nonempty], fun hzero => ?_⟩, hzeroes⟩
    rw [hds.head?_append] at hzero
    have hvalue := eq_zero_of_toDigits (hds.single hzero)
    rw [hshortest.resolve_left (not_not_intro hvalue)]
    rfl
  have hdrop : ∀ k, k < (Nat.toDigits 10 d.digits).length → ∀ {t}, Exponent t →
      Tail ('.' :: ((Nat.toDigits 10 d.digits).drop k ++ t)) := fun k hk t ht =>
    .fraction (fun c hc => hds.digits c (List.mem_of_mem_drop hc)) (by simp; omega) ht
  split
  · -- the point stands among the digits
    have htail := hdrop (d.exponent + (Nat.toDigits 10 d.digits).length).toNat (by omega) .none
    rw [List.append_nil] at htail
    exact ⟨_, _, rfl, hds.take (by omega), htail⟩
  split
  · -- the point stands before the digits, with zeros between them
    refine ⟨['0'], '.' :: (List.replicate _ '0' ++ Nat.toDigits 10 d.digits), rfl,
      leading_toDigits 0, ?_⟩
    rw [← List.append_nil (_ ++ _)]
    exact .fraction ((digits_replicate _).append hds.digits) (by simp [hds.nonempty]) .none
  · -- one digit or more, and an exponent
    have hexponent : ∀ n, Exponent ('e' :: (if n < 0 then '-' else '+') ::
        Nat.toDigits 10 (Int.natAbs n)) := fun n =>
      @Exponent.some 'e' [_] _ (.inl rfl) (by split <;> simp) (digits_toDigits _)
        Nat.toDigits_ne_nil
    split
    · exact ⟨_, _, rfl, hds, .exponent (hexponent _)⟩
    · rw [Binary64.pointed, List.append_assoc]
      exact ⟨_, _, rfl, hds.take (by decide), hdrop 1 (by omega) (hexponent _)⟩

/-! ### Numbers of the grammar -/

/-- Reads a number with its minus sign. -/
def readSigned : List Char → Except Error (Number × List Char)
  | '-' :: cs => readNumber false cs
  | cs => readNumber true cs

theorem Number.ofText?_eq (s : String) : Number.ofText? s =
    match readSigned s.toList with
    | .ok (n, []) => some n
    | _ => none :=
  rfl

theorem readSigned_digit {c : Char} (hc : c.isDigit = true) (cs : List Char) :
    readSigned (c :: cs) = readNumber true (c :: cs) := by
  rw [readSigned]
  rintro _ ⟨⟩
  exact absurd hc (by decide)

theorem readSigned_digits {ds : List Char} (hds : Leading ds) (cs : List Char) :
    readSigned (ds ++ cs) = readNumber true (ds ++ cs) := by
  obtain ⟨c, ds, rfl⟩ := List.exists_cons_of_ne_nil hds.nonempty
  exact readSigned_digit hds.digits.head (ds ++ cs)

/-- A number of the grammar: digits and what may stand behind them, with a minus sign or without. -/
inductive Numeral : List Char → Prop
  | positive {ds t : List Char} : Leading ds → Tail t → Numeral (ds ++ t)
  | negative {ds t : List Char} : Leading ds → Tail t → Numeral ('-' :: (ds ++ t))

/-- A number of the grammar is taken, wherever the text ends. -/
theorem Numeral.settles {cs : List Char} (h : Numeral cs) : Settles readSigned cs := by
  cases h with
  | @positive ds t hds ht =>
    obtain ⟨r, hrange, hreads⟩ := settles_number hds ht true
    refine ⟨r, hrange, fun rest hrest => ?_⟩
    have hsigned := readSigned_digits hds (t ++ rest)
    rw [← List.append_assoc] at hsigned
    exact hsigned.trans (hreads rest hrest)
  | negative hds ht => exact settles_number hds ht false

/-- A number of the grammar starts with its minus sign or a digit. -/
theorem Numeral.exists_cons {cs : List Char} (h : Numeral cs) :
    ∃ c rest, cs = c :: rest ∧ (c = '-' ∨ c.isDigit = true) := by
  cases h with
  | @positive ds t hds ht =>
    obtain ⟨c, ds, rfl⟩ := List.exists_cons_of_ne_nil hds.nonempty
    exact ⟨c, ds ++ t, rfl, .inr hds.digits.head⟩
  | negative => exact ⟨'-', _, rfl, .inl rfl⟩

/-- Every number is printed as one of the grammar. -/
theorem numeral_print (n : Number) : Numeral n.print := by
  cases n with
  | natural n =>
    rw [Number.print, ← List.append_nil (Nat.toDigits 10 n)]
    exact .positive (leading_toDigits n) (.exponent .none)
  | negative n =>
    rw [Number.print, ← List.append_nil (Nat.toDigits 10 n)]
    exact .negative (leading_toDigits n) (.exponent .none)
  | float x =>
    obtain ⟨ds, t, htext, hds, ht⟩ := exists_numeral x
    rw [Number.print, htext, Binary64.signText]
    rcases x.negative with - | -
    · show Numeral (ds ++ t)
      exact .positive hds ht
    · show Numeral ('-' :: (ds ++ t))
      exact .negative hds ht

/-! ### Reading numbers back -/

namespace Number

/-- The number is one that a text can denote. -/
def InRange : Number → Prop
  | .natural n => n < twoTo 64
  | .negative n => 1 ≤ n ∧ n ≤ twoTo 63
  | .float _ => True

/-- What the text of the number is read as. -/
def reread (n : Number) : Except Error Number :=
  match ofText? (String.ofList n.print) with
  | some m => .ok m
  | none => .error .numberOutOfRange

/-- The number that the text of a number stands for, if it is in range. -/
def read (s : String) : Except Error Number :=
  match ofText? s with
  | some n => .ok n
  | none => .error .numberOutOfRange

end Number

theorem Number.read_eq {s : String} {r : Except Error Number}
    (hrange : ∀ e, r = .error e → e = .numberOutOfRange) (hreads : Reads readSigned s.toList r) :
    Number.read s = r := by
  have hwhole := hreads [] ends_nil
  rw [List.append_nil] at hwhole
  rw [Number.read, Number.ofText?_eq, hwhole]
  rcases r with e | m
  · rw [hrange e rfl]
    rfl
  · rfl

/-- A text of the grammar is read as the number it stands for, wherever it ends. -/
theorem Numeral.reads {s : String} (h : Numeral s.toList) :
    Reads readSigned s.toList (Number.read s) := by
  obtain ⟨r, hrange, hreads⟩ := h.settles
  rwa [Number.read_eq hrange hreads]

/-- What a printed number is read as, wherever the text ends. -/
theorem reread_eq {n : Number} {r : Except Error Number}
    (hrange : ∀ e, r = .error e → e = .numberOutOfRange) (hreads : Reads readSigned n.print r) :
    n.reread = r := by
  rw [← String.toList_ofList (l := n.print)] at hreads
  exact Number.read_eq hrange hreads

/-- A whole number that fits is taken exactly. -/
theorem reads_whole {n : Nat} (h : n < twoTo 64) (positive : Bool) :
    Reads (readNumber positive) (Nat.toDigits 10 n) (.ok (wholeNumber positive n)) := by
  intro rest hrest
  have hds := leading_toDigits n
  have hvalue := @Nat.ofDigitChars_ten_toDigits n
  obtain ⟨c, cs, hcs⟩ := List.exists_cons_of_ne_nil hds.nonempty
  rw [hcs] at hds hvalue ⊢
  by_cases hzero : c = '0'
  · subst hzero
    obtain rfl : cs = [] := (List.cons.inj (hds.single rfl)).2
    obtain rfl : 0 = n := hvalue
    rw [List.cons_append, List.nil_append, readNumber_zero positive hrest.startsWithDigit,
      readRest_ends hrest]
    rfl
  · have hgathered : Nat.ofDigitChars 10 cs (c.toNat - 0x30) = n := by
      rw [Nat.ofDigitChars_cons, Nat.mul_zero, Nat.zero_add] at hvalue
      exact hvalue
    rw [List.cons_append, readNumber_digit positive hds.digits.head hzero,
      gather_of_lt hds.digits.tail hrest.startsWithDigit 0 (hgathered ▸ h), hgathered]
    simp only [hrest.startsWithDigit]
    exact readRest_ends hrest positive n

theorem reads_natural {n : Nat} (h : n < twoTo 64) :
    Reads readSigned (Number.natural n).print (.ok (.natural n)) := by
  intro rest hrest
  exact (readSigned_digits (leading_toDigits n) rest).trans (reads_whole h true rest hrest)

theorem reads_negative {n : Nat} (h : 1 ≤ n ∧ n ≤ twoTo 63) :
    Reads readSigned (Number.negative n).print (.ok (.negative n)) := by
  intro rest hrest
  have hfits : n < twoTo 64 := Nat.lt_of_le_of_lt h.2 (by decide)
  have hread := reads_whole hfits false rest hrest
  rwa [show wholeNumber false n = .negative n by simp [wholeNumber, h]] at hread

/-- A whole number is read back. -/
theorem reread_natural {n : Nat} (h : n < twoTo 64) :
    (Number.natural n).reread = .ok (.natural n) :=
  reread_eq nofun (reads_natural h)

theorem reread_negative {n : Nat} (h : 1 ≤ n ∧ n ≤ twoTo 63) :
    (Number.negative n).reread = .ok (.negative n) :=
  reread_eq nofun (reads_negative h)

/-- A printed number is taken wherever the text ends. -/
theorem reads_print {n : Number} (h : n.InRange) : Reads readSigned n.print n.reread := by
  cases n with
  | natural n => exact reread_natural h ▸ reads_natural h
  | negative n => exact reread_negative h ▸ reads_negative h
  | float x =>
    obtain ⟨r, hrange, hreads⟩ := (numeral_print (.float x)).settles
    exact (reread_eq hrange hreads).symm ▸ hreads

/-! ### Numbers that are read -/

theorem digit?_lt {c : Char} {d : Nat} (h : digit? c = some d) : d < 10 := by
  unfold digit? at h
  split at h
  · next hc =>
    obtain rfl := Option.some.inj h
    have hle : c.toNat ≤ 0x39 := (Char.isDigit_iff_toNat.mp hc).2
    omega
  · cases h

theorem gather_lt {s : Nat} (hs : s < twoTo 64) (n : Nat) (cs : List Char) :
    (gather s n cs).significand < twoTo 64 := by
  induction cs generalizing s n with
  | nil => exact hs
  | cons c cs ih =>
    rw [gather]
    split
    · split
      · next hfits => exact ih hfits (n + 1)
      · exact hs
    · exact hs

theorem wholeNumber_inRange {n : Nat} (h : n < twoTo 64) (positive : Bool) :
    (wholeNumber positive n).InRange := by
  unfold wholeNumber
  split
  · exact h
  · split
    · next hrange => exact hrange
    · trivial

theorem inRange_of_float {r : Except Error (Binary64 × List Char)} {n : Number}
    {rest : List Char} (h : (fun (x, rest) => (Number.float x, rest)) <$> r = .ok (n, rest)) :
    n.InRange := by
  rcases r with e | ⟨x, rest⟩
  · cases h
  · obtain rfl := (Prod.mk.inj (Except.ok.inj h)).1
    trivial

theorem readRest_inRange {positive : Bool} {s : Nat} (hs : s < twoTo 64) {cs rest : List Char}
    {n : Number} (h : readRest positive s cs = .ok (n, rest)) : n.InRange := by
  unfold readRest at h
  split at h
  · exact inRange_of_float h
  · exact inRange_of_float h
  · exact inRange_of_float h
  · obtain rfl := (Prod.mk.inj (Except.ok.inj h)).1
    exact wholeNumber_inRange hs positive

/-- A number that is read is one that a text can denote. -/
theorem readNumber_inRange {positive : Bool} {cs rest : List Char} {n : Number}
    (h : readNumber positive cs = .ok (n, rest)) : n.InRange := by
  unfold readNumber at h
  split at h
  · cases h
  · split at h
    · cases h
    · exact readRest_inRange (twoTo_pos 64) h
  · split at h
    · cases h
    · next hd =>
      simp only at h
      split at h
      · exact inRange_of_float h
      · have hfits := Nat.lt_trans (digit?_lt hd) (show 10 < twoTo 64 by decide)
        exact readRest_inRange (gather_lt hfits 0 _) h

end FreshTag.Json
