/-
FreshTag/Proofs/Json/Rereading.lean

What a printed value is read as (`reads_value`).  It is the value itself with
every number replaced by what its text is read as, unless it is nested deeper
than the reader goes, or one of its objects has `embeddedKey` as its first key.
So a value is read back exactly if neither is the case and every number is read
back (`reread_eq_ok_iff`).
-/
import FreshTag.Proofs.Etag.Printed
import FreshTag.Proofs.Json.Readings

namespace FreshTag.Json

/-! ### The value that is read -/

/-- What stands under `embeddedKey`, if that is the first key, and the other members. -/
def mark? : Members → Option (Value × Members)
  | [] => none
  | (k, x) :: ms => if k = embeddedKey then some (x, ms) else none

/-- What an object is read as of which the first key is `embeddedKey`. -/
def rereadMark (parse : String → Except Error Value) (x : Value) (ms : Members) :
    Except Error Value :=
  match x with
  | .string s => do
    let v ← parse s
    if ms.isEmpty then .ok v else .error .trailingComma
  | x => .error (mismatch "raw value" x.print)

mutual

/-- What the text of a value is read as, where `depth` arrays and objects may be open. -/
def Value.reread (parse : String → Except Error Value) : Nat → Value → Except Error Value
  | _, .number n => n.reread.map .number
  | 0, .array _ => .error .recursionLimit
  | depth + 1, .array items => (rereadItems parse depth items).map .array
  | 0, .object _ => .error .recursionLimit
  | depth + 1, .object members =>
    match mark? members with
    | some (x, ms) => rereadMark parse x ms
    | none => (rereadMembers parse depth members).map .object
  | _, v => .ok v

/-- What the texts of items are read as. -/
def rereadItems (parse : String → Except Error Value) (depth : Nat) :
    List Value → Except Error (List Value)
  | [] => .ok []
  | v :: vs => do
    let w ← v.reread parse depth
    let ws ← rereadItems parse depth vs
    .ok (w :: ws)

/-- What the texts of members are read as. -/
def rereadMembers (parse : String → Except Error Value) (depth : Nat) :
    Members → Except Error Members
  | [] => .ok []
  | (k, v) :: ms => do
    let w ← v.reread parse depth
    let ws ← rereadMembers parse depth ms
    .ok ((k, w) :: ws)

end

/-! ### The first character of a text -/

/-- A value starts with this character, and neither white space nor the end of an array or an object
does. -/
def Opens (c : Char) : Prop :=
  isBlank c = false ∧ c ≠ ']' ∧ c ≠ '\x7d'

instance (c : Char) : Decidable (Opens c) :=
  inferInstanceAs (Decidable (_ ∧ _ ∧ _))

theorem ne_of_isDigit {c d : Char} (h : c.isDigit = true) (hd : d.isDigit = false) : c ≠ d := by
  rintro rfl
  rw [h] at hd
  cases hd

theorem opens_of_isDigit {c : Char} (h : c.isDigit = true) : Opens c := by
  refine ⟨?_, ne_of_isDigit h rfl, ne_of_isDigit h rfl⟩
  simp [isBlank, ne_of_isDigit h]

/-- Only a string starts with a quote. -/
theorem exists_print (v : Value) :
    ∃ c cs, v.print = c :: cs ∧ Opens c ∧ (c = '"' → ∃ s, v = .string s) := by
  cases v with
  | null => exact ⟨'n', _, rfl, by decide, fun h => absurd h (by decide)⟩
  | bool b => cases b with
    | false => exact ⟨'f', _, rfl, by decide, fun h => absurd h (by decide)⟩
    | true => exact ⟨'t', _, rfl, by decide, fun h => absurd h (by decide)⟩
  | number n =>
    obtain ⟨c, cs, htext, rfl | hc⟩ := (numeral_print n).exists_cons
    · exact ⟨'-', cs, htext, by decide, fun h => absurd h (by decide)⟩
    · exact ⟨c, cs, htext, opens_of_isDigit hc, fun h => absurd h (ne_of_isDigit hc rfl)⟩
  | string s => exact ⟨'"', _, rfl, by decide, fun _ => ⟨s, rfl⟩⟩
  | array items => exact ⟨'[', _, rfl, by decide, fun h => absurd h (by decide)⟩
  | object members => exact ⟨'\x7b', _, rfl, by decide, fun h => absurd h (by decide)⟩

theorem skipBlank_cons {c : Char} (h : Opens c) (cs : List Char) : skipBlank (c :: cs) = c :: cs := by
  rw [skipBlank, List.dropWhile_cons, if_neg]
  simp [h.1]

/-! ### Simple values -/

section

variable {parse : String → Except Error Value}

theorem readString_printed (s : String) (rest : List Char) :
    readString (s.toList.flatMap escapeChar ++ '"' :: rest) = .ok (s, rest) := by
  rw [readString, readText_escaped]
  exact congrArg (fun s => Except.ok (s, rest)) String.ofList_toList

theorem printString_append (s : String) (cs : List Char) :
    printString s ++ cs = '"' :: (s.toList.flatMap escapeChar ++ '"' :: cs) := by
  simp [printString, printText]

theorem readValue_number {embedded : Embedded} {c : Char} (hc : c = '-' ∨ c.isDigit = true)
    (depth : Nat) (cs : List Char) : readValue embedded depth (c :: cs) =
      (readSigned (c :: cs)).map fun (n, cs) => (.number n, cs) := by
  rcases hc with rfl | hc
  · rw [readValue]
    rfl
  · rw [readValue, skipBlank_cons (opens_of_isDigit hc), readSigned_digit hc]
    simp [hc, ne_of_isDigit hc]

/-- A text of the grammar is a value where it is read as a number. -/
theorem Numeral.reads_value {cs : List Char} (h : Numeral cs) {r : Except Error Number}
    (hreads : Reads readSigned cs r) (embedded : Embedded) (depth : Nat) :
    Reads (readValue embedded depth) cs (r.map .number) := by
  intro rest hrest
  obtain ⟨c, cs, rfl, hc⟩ := h.exists_cons
  have hread := hreads rest hrest
  rw [List.cons_append] at hread ⊢
  rw [readValue_number hc, hread]
  rcases r with e | m <;> rfl

theorem reads_number (embedded : Embedded) {n : Number} (hn : n.InRange) (depth : Nat) :
    Reads (readValue embedded depth) (Value.number n).print (n.reread.map .number) :=
  (numeral_print n).reads_value (reads_print hn) embedded depth

theorem readValue_string (embedded : Embedded) (s : String) (depth : Nat) (rest : List Char) :
    readValue embedded depth (printString s ++ rest) = .ok (.string s, rest) := by
  rw [printString_append, readValue]
  simp [skipBlank, isBlank, readString_printed, Except.map]

/-! ### Items -/

/-- A part, with a comma in front unless it is the first one. -/
def led (first : Bool) (part : List Char) : List Char :=
  if first then part else ',' :: part

/-- Parts with a comma in front of each but the first one. -/
def joined : Bool → List (List Char) → List Char
  | _, [] => []
  | first, part :: parts => led first (part ++ joined false parts)

theorem commaSeparated_eq_joined (parts : List (List Char)) :
    commaSeparated parts = joined true parts := by
  induction parts with
  | nil => rfl
  | cons part parts ih =>
    rcases parts with - | ⟨next, parts⟩
    · exact (List.append_nil part).symm
    · rw [commaSeparated, ih]
      · rfl
      · exact List.cons_ne_nil next parts

theorem led_append (first : Bool) (part cs : List Char) :
    led first part ++ cs = led first (part ++ cs) := by
  cases first <;> rfl

theorem joined_cons_append (first : Bool) (part : List Char) (parts : List (List Char))
    (cs : List Char) :
    joined first (part :: parts) ++ cs = led first (part ++ (joined false parts ++ cs)) := by
  rw [joined, led_append, List.append_assoc]

theorem ends_joined (parts : List (List Char)) {c : Char} (hc : c = ']' ∨ c = '\x7d')
    (cs : List Char) : Ends (joined false parts ++ c :: cs) := by
  rcases parts with - | ⟨part, parts⟩
  · exact ends_cons (.inr hc) cs
  · exact ends_cons (.inl rfl) _

theorem nextItem_led (first : Bool) (v : Value) (cs : List Char) :
    nextItem first (led first (v.print ++ cs)) = .ok (some (v.print ++ cs)) := by
  obtain ⟨c, text, htext, hc, -⟩ := exists_print v
  rw [htext, List.cons_append]
  cases first with
  | false =>
    show nextItem false (',' :: c :: (text ++ cs)) = _
    unfold nextItem
    rw [skipBlank_cons (by decide)]
    simp [skipBlank_cons hc, hc.2.1]
  | true =>
    show nextItem true (c :: (text ++ cs)) = _
    unfold nextItem
    rw [skipBlank_cons hc]
    simp [hc.2.1]

theorem readItems_led {item : List Char → Except Error (Value × List Char)} (fuel : Nat)
    (first : Bool) (v : Value) (cs : List Char) :
    readItems item (fuel + 1) first (led first (v.print ++ cs)) = (do
      let (x, cs) ← item (v.print ++ cs)
      let (xs, cs) ← readItems item fuel false cs
      .ok (x :: xs, cs)) := by
  rw [readItems, nextItem_led]
  rfl

/-- Items are read as what each of them is read as. -/
theorem readItems_printed {depth : Nat} {items : List Value}
    (hitems : ∀ v ∈ items, Reads (readValue (some parse) depth) v.print (v.reread parse depth))
    {fuel : Nat} (hfuel : items.length < fuel) (first : Bool) (rest : List Char) :
    readItems (readValue (some parse) depth) fuel first
        (joined first (printItems items) ++ ']' :: rest) =
      (rereadItems parse depth items).map (·, ']' :: rest) := by
  induction items generalizing fuel first with
  | nil =>
    obtain ⟨fuel, rfl⟩ := Nat.exists_eq_add_one_of_ne_zero (Nat.ne_zero_of_lt hfuel)
    rfl
  | cons v items ih =>
    obtain ⟨hv, hitems⟩ := List.forall_mem_cons.mp hitems
    obtain ⟨fuel, rfl⟩ := Nat.exists_eq_add_one_of_ne_zero (Nat.ne_zero_of_lt hfuel)
    have hread := hv _ (ends_joined (printItems items) (.inl rfl) rest)
    have hrest := ih hitems (Nat.lt_of_succ_lt_succ hfuel) false
    rw [printItems, joined_cons_append, readItems_led, hread, rereadItems]
    rcases v.reread parse depth with e | w
    · rfl
    · show (readItems _ fuel false _ >>= _) = _
      rw [hrest]
      rcases rereadItems parse depth items with e | ws <;> rfl

/-! ### Members -/

theorem nextKey_led (first : Bool) (cs : List Char) :
    nextKey first (led first ('"' :: cs)) = .ok (some cs) := by
  cases first <;> rfl

theorem printMember_append (key : String) (value cs : List Char) :
    printMember key value ++ cs =
      '"' :: (key.toList.flatMap escapeChar ++ '"' :: ':' :: (value ++ cs)) := by
  rw [printMember, List.append_assoc, printString_append]
  rfl

theorem readMembers_led {α : Type} {value : List Char → Except Error (α × List Char)} (fuel : Nat)
    (first : Bool) (key : String) (text cs : List Char) :
    readMembers value (fuel + 1) first (led first (printMember key text ++ cs)) = (do
      let (x, cs) ← value (text ++ cs)
      let (xs, cs) ← readMembers value fuel false cs
      .ok ((key, x) :: xs, cs)) := by
  rw [printMember_append, readMembers, nextKey_led]
  show (readString _ >>= _) = _
  rw [readString_printed]
  rfl

/-- Members are read as what the value of each of them is read as. -/
theorem readMembers_printed {depth : Nat} {members : Members}
    (hmembers : ∀ m ∈ members,
      Reads (readValue (some parse) depth) m.2.print (m.2.reread parse depth))
    {fuel : Nat} (hfuel : members.length < fuel) (first : Bool) (rest : List Char) :
    readMembers (readValue (some parse) depth) fuel first
        (joined first (printMembers members) ++ '\x7d' :: rest) =
      (rereadMembers parse depth members).map (·, '\x7d' :: rest) := by
  induction members generalizing fuel first with
  | nil =>
    obtain ⟨fuel, rfl⟩ := Nat.exists_eq_add_one_of_ne_zero (Nat.ne_zero_of_lt hfuel)
    rfl
  | cons m members ih =>
    obtain ⟨hm, hmembers⟩ := List.forall_mem_cons.mp hmembers
    obtain ⟨fuel, rfl⟩ := Nat.exists_eq_add_one_of_ne_zero (Nat.ne_zero_of_lt hfuel)
    have hread := hm _ (ends_joined (printMembers members) (.inr rfl) rest)
    have hrest := ih hmembers (Nat.lt_of_succ_lt_succ hfuel) false
    rw [printMembers, joined_cons_append, readMembers_led, hread, rereadMembers]
    rcases m.2.reread parse depth with e | w
    · rfl
    · show (readMembers _ fuel false _ >>= _) = _
      rw [hrest]
      rcases rereadMembers parse depth members with e | ws <;> rfl

/-- There are enough characters for the parts. -/
theorem length_le_joined {parts : List (List Char)} (h : ∀ part ∈ parts, part ≠ []) (first : Bool) :
    parts.length ≤ (joined first parts).length := by
  induction parts generalizing first with
  | nil => exact Nat.le_refl 0
  | cons part parts ih =>
    obtain ⟨hpart, hparts⟩ := List.forall_mem_cons.mp h
    have hrest := ih hparts false
    have hpos := List.length_pos_iff.mpr hpart
    cases first <;> simp only [joined, led, List.length_cons, List.length_append, if_true] <;> grind

theorem length_lt_joined {parts : List (List Char)} (h : ∀ part ∈ parts, part ≠ []) (c : Char)
    (rest : List Char) : parts.length < (joined true parts ++ c :: rest).length := by
  have hjoined := length_le_joined h true
  rw [List.length_append, List.length_cons]
  omega

theorem length_items_lt (items : List Value) (c : Char) (rest : List Char) :
    items.length < (joined true (printItems items) ++ c :: rest).length := by
  have hparts : (printItems items).length = items.length ∧ ∀ part ∈ printItems items, part ≠ [] := by
    induction items with
    | nil => exact ⟨rfl, nofun⟩
    | cons v items ih =>
      obtain ⟨c, cs, htext, -, -⟩ := exists_print v
      exact ⟨congrArg (· + 1) ih.1, List.forall_mem_cons.mpr ⟨htext ▸ List.cons_ne_nil c cs, ih.2⟩⟩
  exact hparts.1 ▸ length_lt_joined hparts.2 c rest

theorem length_printMembers (members : Members) :
    (printMembers members).length = members.length := by
  induction members with
  | nil => rfl
  | cons m members ih => exact congrArg (· + 1) ih

theorem printMembers_ne_nil (members : Members) : ∀ part ∈ printMembers members, part ≠ [] := by
  induction members with
  | nil => nofun
  | cons m members ih => exact List.forall_mem_cons.mpr ⟨List.cons_ne_nil _ _, ih⟩

theorem length_members_lt (members : Members) (c : Char) (rest : List Char) :
    members.length < (joined true (printMembers members) ++ c :: rest).length :=
  length_printMembers members ▸ length_lt_joined (printMembers_ne_nil members) c rest

/-! ### Objects -/

/-- The keys stay as they are. -/
theorem keys_of_rereadMembers {depth : Nat} {members ws : Members}
    (h : rereadMembers parse depth members = .ok ws) :
    ws.map Prod.fst = members.map Prod.fst := by
  induction members generalizing ws with
  | nil =>
    obtain rfl := Except.ok.inj h
    rfl
  | cons m members ih =>
    obtain ⟨w, -, h⟩ := bind_eq_ok h
    obtain ⟨ws', hws, h⟩ := bind_eq_ok h
    obtain rfl := Except.ok.inj h
    rw [List.map_cons, List.map_cons, ih hws]

theorem ofList_of_rereadMembers {depth : Nat} {members ws : Members} (hsorted : Members.Sorted members)
    (h : rereadMembers parse depth members = .ok ws) : Members.ofList ws = ws := by
  refine Members.ofList_of_sorted ?_
  rw [Members.Sorted, ← List.pairwise_map] at hsorted ⊢
  rwa [keys_of_rereadMembers h]

/-- The members of an object are read as what the value of each of them is read as. -/
theorem readMembers_object {depth : Nat} {members : Members} (hsorted : Members.Sorted members)
    (hmembers : ∀ m ∈ members,
      Reads (readValue (some parse) depth) m.2.print (m.2.reread parse depth))
    (rest : List Char) {α : Type} (f : Members → α) :
    (do
      let (entries, cs) ← readMembers (readValue (some parse) depth)
        (joined true (printMembers members) ++ '\x7d' :: rest).length true
        (joined true (printMembers members) ++ '\x7d' :: rest)
      let cs ← closeObject cs
      Except.ok (f (Members.ofList entries), cs)) =
      (rereadMembers parse depth members).map fun ws => (f ws, rest) := by
  rw [readMembers_printed hmembers (length_members_lt members _ rest)]
  rcases hread : rereadMembers parse depth members with e | ws
  · rfl
  · show Except.ok (f (Members.ofList ws), rest) = _
    rw [ofList_of_rereadMembers hsorted hread]
    rfl

/-! ### Marked objects -/

/-- Where a string is expected, a number is refused as what it is read as. -/
theorem mismatch_number {c : Char} (hc : c = '-' ∨ c.isDigit = true) (expected : String)
    (cs : List Char) : mismatch expected (c :: cs) =
      match readSigned (c :: cs) with
      | .ok (n, _) => .invalidType (.number n) expected
      | .error e => e := by
  rcases hc with rfl | hc
  · rfl
  · rw [readSigned_digit hc]
    rcases hread : readNumber true (c :: cs) with e | ⟨n, rest⟩ <;>
      simp [mismatch, hc, hread, ne_of_isDigit hc]

/-- What is refused is told by the value alone. -/
theorem mismatch_print {x : Value} (hx : x.Formed) (hstring : ∀ s, x ≠ .string s)
    (expected : String) {rest : List Char} (hrest : Ends rest) :
    mismatch expected (x.print ++ rest) = mismatch expected x.print := by
  cases x with
  | null => rfl
  | bool b => cases b <;> rfl
  | number n =>
    obtain ⟨c, cs, htext, hc⟩ := (numeral_print n).exists_cons
    have hwhole := reads_print hx [] ends_nil
    have hread := reads_print hx rest hrest
    rw [List.append_nil] at hwhole
    rw [Value.print]
    rw [htext] at hwhole hread ⊢
    rw [List.cons_append] at hread ⊢
    rw [mismatch_number hc, mismatch_number hc, hread, hwhole]
    rcases n.reread with e | m <;> rfl
  | string s => exact absurd rfl (hstring s)
  | array items => rfl
  | object members => rfl

theorem readEmbedded_string (s : String) (cs : List Char) :
    readEmbedded parse (printString s ++ cs) = (parse s).map (·, cs) := by
  rw [printString_append, readEmbedded]
  simp only [skipBlank_cons (show Opens '"' by decide), if_true, readString_printed]
  show (parse s >>= fun v => Except.ok (v, cs)) = _
  rcases parse s with e | v <;> rfl

theorem readEmbedded_other {x : Value} (hstring : ∀ s, x ≠ .string s) (cs : List Char) :
    readEmbedded parse (x.print ++ cs) = .error (mismatch "raw value" (x.print ++ cs)) := by
  obtain ⟨c, text, htext, hc, hquote⟩ := exists_print x
  have hother : c ≠ '"' := by
    intro h
    obtain ⟨s, hs⟩ := hquote h
    exact hstring s hs
  rw [htext, List.cons_append, readEmbedded, skipBlank_cons hc]
  simp [hother]

/-- The members of an object, read as they are. -/
def readPlain (value : List Char → Except Error (Value × List Char)) (cs : List Char) :
    Except Error (Value × List Char) := do
  let (entries, cs) ← readMembers value cs.length true cs
  let cs ← closeObject cs
  .ok (.object (Members.ofList entries), cs)

theorem braced_append (parts : List (List Char)) (rest : List Char) :
    braced parts ++ rest = '\x7b' :: (joined true parts ++ '\x7d' :: rest) := by
  rw [braced, commaSeparated_eq_joined, List.append_assoc]
  rfl

theorem print_object_append (members : Members) (rest : List Char) :
    (Value.object members).print ++ rest =
      '\x7b' :: (joined true (printMembers members) ++ '\x7d' :: rest) :=
  braced_append (printMembers members) rest

/-- The first key of an object decides how it is read. -/
theorem readObject_led (value : List Char → Except Error (Value × List Char)) (key : String)
    (text cs : List Char) :
    readObject (some parse) value (led true (printMember key text ++ cs)) =
      if key = embeddedKey then do
        let (v, cs) ← readEmbedded parse (text ++ cs)
        let cs ← closeObject cs
        .ok (v, cs)
      else readPlain value (led true (printMember key text ++ cs)) := by
  unfold readObject
  rw [printMember_append, nextKey_led]
  show (readString _ >>= _) = _
  rw [readString_printed]
  show (if key = embeddedKey then _ else _) = _
  split
  · rfl
  · rfl

/-- What stands under `embeddedKey` is read, if it is the whole object. -/
theorem readMark_printed {x : Value} (hx : x.Formed) (members : Members) (rest : List Char) :
    (do
      let (v, cs) ← readEmbedded parse
        (x.print ++ (joined false (printMembers members) ++ '\x7d' :: rest))
      let cs ← closeObject cs
      Except.ok (v, cs)) = (rereadMark parse x members).map (·, rest) := by
  by_cases hstring : ∃ s, x = .string s
  · obtain ⟨s, rfl⟩ := hstring
    rw [Value.print, readEmbedded_string, rereadMark]
    rcases parse s with e | v
    · rfl
    · rcases members with - | ⟨m, members⟩ <;> rfl
  · have hother : ∀ s, x ≠ .string s := fun s hs => hstring ⟨s, hs⟩
    have hmark : rereadMark parse x members = .error (mismatch "raw value" x.print) := by
      cases x with
      | string s => exact absurd rfl (hother s)
      | _ => rfl
    rw [readEmbedded_other hother, hmark,
      mismatch_print hx hother _ (ends_joined (printMembers members) (.inr rfl) rest)]
    rfl

/-! ### Values -/

theorem readArray_printed {depth : Nat} {items : List Value}
    (hitems : ∀ v ∈ items, Reads (readValue (some parse) depth) v.print (v.reread parse depth))
    (rest : List Char) :
    readValue (some parse) (depth + 1) ((Value.array items).print ++ rest) =
      (rereadItems parse depth items).map fun ws => (.array ws, rest) := by
  have htext : (Value.array items).print ++ rest =
      '[' :: (joined true (printItems items) ++ ']' :: rest) := by
    rw [Value.print, commaSeparated_eq_joined, List.append_assoc]
    rfl
  rw [htext, readValue, skipBlank_cons (by decide)]
  show (readItems _ _ true _ >>= _) = _
  rw [readItems_printed hitems (length_items_lt items _ rest)]
  rcases rereadItems parse depth items with e | ws <;> rfl

theorem readObject_printed {depth : Nat} {members : Members} (hsorted : Members.Sorted members)
    (hmembers : ∀ m ∈ members, m.2.Formed ∧
      Reads (readValue (some parse) depth) m.2.print (m.2.reread parse depth))
    (rest : List Char) :
    readValue (some parse) (depth + 1) ((Value.object members).print ++ rest) =
      ((Value.object members).reread parse (depth + 1)).map (·, rest) := by
  have hplain : readPlain (readValue (some parse) depth)
      (joined true (printMembers members) ++ '\x7d' :: rest) =
        (rereadMembers parse depth members).map fun ws => (.object ws, rest) :=
    readMembers_object hsorted (fun m hm => (hmembers m hm).2) rest Value.object
  rw [print_object_append, readValue, skipBlank_cons (by decide)]
  show readObject (some parse) (readValue (some parse) depth) _ = _
  -- only the first key is looked at for an embedded text
  rcases members with - | ⟨⟨key, x⟩, members⟩
  · exact hplain
  · rw [printMembers, joined_cons_append] at hplain ⊢
    rw [readObject_led, Value.reread, mark?]
    split
    · exact readMark_printed (hmembers _ List.mem_cons_self).1 members rest
    · rw [hplain]
      rcases rereadMembers parse depth ((key, x) :: members) with e | ws <;> rfl

/-- What the text of a value is read as, wherever the text ends. -/
theorem reads_value {v : Value} (hv : v.WellFormed) (depth : Nat) :
    Reads (readValue (some parse) depth) v.print (v.reread parse depth) := by
  intro rest hrest
  -- on the value; inside of an array or an object a comma or a bracket comes behind
  induction v using Value.induction generalizing depth rest with
  | null =>
    rw [readValue]
    rfl
  | bool b => cases b <;> (rw [readValue]; rfl)
  | number n =>
    have hn : n.InRange := hv.formed
    rw [Value.reread]
    exact reads_number _ hn depth rest hrest
  | string s => exact readValue_string _ s depth rest
  | array items ih =>
    obtain ⟨-, hitems⟩ := forall_parts_array.mp hv
    rcases depth with - | depth
    · rw [readValue]
      rfl
    · rw [readArray_printed (fun v hmem => ih v hmem (hitems v hmem) depth), Value.reread]
      rcases rereadItems parse depth items with e | ws <;> rfl
  | object members ih =>
    obtain ⟨hsorted, hmembers⟩ := forall_parts_object.mp hv
    rcases depth with - | depth
    · rw [readValue]
      rfl
    · have hwellFormed : ∀ m ∈ members, m.2.WellFormed := forall_partsOfMembers.mp hmembers
      exact readObject_printed hsorted
        (fun m hm => ⟨(hwellFormed m hm).formed, ih m hm (hwellFormed m hm) depth⟩) rest

/-- What the text of an object is read as where only an object may stand. -/
theorem readMap_printed {row : Members} (hrow : (Value.object row).WellFormed) (depth : Nat)
    (rest : List Char) :
    readMap (some parse) (depth + 1) ((Value.object row).print ++ rest) =
      (rereadMembers parse depth row).map (·, rest) := by
  obtain ⟨hsorted, hmembers⟩ := forall_parts_object.mp hrow
  have hwellFormed : ∀ m ∈ row, m.2.WellFormed := forall_partsOfMembers.mp hmembers
  rw [print_object_append, readMap, skipBlank_cons (by decide)]
  exact readMembers_object hsorted (fun m hm => reads_value (hwellFormed m hm) depth) rest id

/-- What a text that is embedded in another one denotes. -/
theorem parseWithin_text {v : Value} (hv : v.WellFormed) (n : Nat) :
    parseWithin (n + 1) v.text = v.reread (parseWithin n) nestingLimit := by
  have hread := @reads_value (parseWithin n) v hv nestingLimit [] ends_nil
  rw [List.append_nil] at hread
  rw [parseWithin, parseAll, Value.text, String.toList_ofList, hread]
  rcases v.reread (parseWithin n) nestingLimit with e | w <;> rfl

/-! ### What is read back -/

/-- A number that is read back, or an object that does not stand for an embedded text. -/
def Value.Stable : Value → Prop
  | .number n => n.reread = .ok n
  | .object members => mark? members = none
  | _ => True

/-- Of what a text can denote, floating-point numbers and marked objects alone may not be stable. -/
theorem Value.Formed.stable {v : Value} (hv : v.Formed) (hfloat : ∀ x, v ≠ .number (.float x))
    (hmark : ∀ members, v = .object members → mark? members = none) : v.Stable := by
  cases v with
  | number n =>
    cases n with
    | natural n => exact reread_natural hv
    | negative n => exact reread_negative hv
    | float x => exact absurd rfl (hfloat x)
  | object members => exact hmark members rfl
  | _ => trivial

theorem rereadItems_eq_ok_iff {depth : Nat} {items : List Value} :
    rereadItems parse depth items = .ok items ↔
      ∀ v ∈ items, v.reread parse depth = .ok v := by
  induction items with
  | nil => simp [rereadItems]
  | cons v items ih =>
    rw [List.forall_mem_cons, ← ih, rereadItems]
    rcases v.reread parse depth with e | w
    · simp [bind, Except.bind]
    · rcases rereadItems parse depth items with e | ws <;> simp [bind, Except.bind]

theorem rereadMembers_eq_ok_iff {depth : Nat} {members : Members} :
    rereadMembers parse depth members = .ok members ↔
      ∀ m ∈ members, m.2.reread parse depth = .ok m.2 := by
  induction members with
  | nil => simp [rereadMembers]
  | cons m members ih =>
    rw [List.forall_mem_cons, ← ih, rereadMembers]
    rcases m.2.reread parse depth with e | w
    · simp [bind, Except.bind]
    · rcases rereadMembers parse depth members with e | ws <;>
        simp [bind, Except.bind, Prod.ext_iff]

theorem map_eq_ok_iff {α β : Type} {f : α → β} (hf : Function.Injective f) {r : Except Error α}
    {x : α} : r.map f = .ok (f x) ↔ r = .ok x := by
  rcases r with e | y
  · simp [Except.map]
  · simp [Except.map, hf.eq_iff]

/-- An object that stands for an embedded text is not read back. -/
theorem rereadMark_ne (hparse : ∀ s v, parse s = .ok v → ∀ x, v ≠ .object [(embeddedKey, x)])
    {members : Members} {x : Value} {ms : Members} (hmark : mark? members = some (x, ms)) :
    rereadMark parse x ms ≠ .ok (.object members) := by
  rcases members with - | ⟨⟨key, y⟩, members⟩
  · cases hmark
  · obtain ⟨hkey, hx⟩ := Option.ite_none_right_eq_some.mp hmark
    obtain ⟨rfl, rfl⟩ := Prod.mk.inj (Option.some.inj hx)
    intro h
    unfold rereadMark at h
    split at h
    · next s =>
      obtain ⟨v, hv, h⟩ := bind_eq_ok h
      split at h
      · next hempty =>
        obtain rfl := List.isEmpty_iff.mp hempty
        rw [hkey] at h
        exact hparse s v hv _ (Except.ok.inj h)
      · cases h
    · cases h

/-- A value is read back exactly if it is not too deep and all of its parts are stable. -/
theorem reread_eq_ok_iff (hparse : ∀ s v, parse s = .ok v → ∀ x, v ≠ .object [(embeddedKey, x)])
    {depth : Nat} {v : Value} :
    v.reread parse depth = .ok v ↔ v.depth ≤ depth ∧ ∀ u ∈ v.parts, u.Stable := by
  induction v using Value.induction generalizing depth with
  | null => simp [Value.reread, Value.parts, Value.Stable, Value.depth]
  | bool b => simp [Value.reread, Value.parts, Value.Stable, Value.depth]
  | string s => simp [Value.reread, Value.parts, Value.Stable, Value.depth]
  | number n =>
    rw [Value.reread, map_eq_ok_iff fun _ _ => Value.number.inj]
    simp [Value.parts, Value.Stable, Value.depth]
  | array items ih =>
    rw [forall_parts_array]
    rcases depth with - | depth
    · simp [Value.reread, Value.depth]
    · rw [Value.reread, map_eq_ok_iff fun _ _ => Value.array.inj, rereadItems_eq_ok_iff,
        Value.depth, Nat.succ_le_succ_iff, depthOfItems_le]
      have hitems : (∀ v ∈ items, v.reread parse depth = .ok v) ↔
          ∀ v ∈ items, v.depth ≤ depth ∧ ∀ u ∈ v.parts, u.Stable :=
        forall₂_congr fun v hv => ih v hv
      rw [hitems]
      simp only [Value.Stable, true_and, ← forall_and]
  | object members ih =>
    rw [forall_parts_object, forall_partsOfMembers]
    rcases depth with - | depth
    · simp [Value.reread, Value.depth]
    · have hmembers : (∀ m ∈ members, m.2.reread parse depth = .ok m.2) ↔
          ∀ m ∈ members, m.2.depth ≤ depth ∧ ∀ u ∈ m.2.parts, u.Stable :=
        forall₂_congr fun m hm => ih m hm
      rw [Value.reread, Value.depth, Nat.succ_le_succ_iff, depthOfMembers_le]
      rcases hmark : mark? members with - | ⟨x, ms⟩
      · simp only [map_eq_ok_iff fun _ _ => Value.object.inj]
        rw [rereadMembers_eq_ok_iff, hmembers]
        simp only [Value.Stable, hmark, true_and, ← forall_and]
      · -- an embedded text never denotes the object that marks it
        have hnot := rereadMark_ne hparse hmark
        simp [Value.Stable, hmark, hnot]

theorem rereadItems_of_forall {depth : Nat} {items : List Value}
    (h : ∀ v ∈ items, v.reread parse depth =
      if v.depth ≤ depth then .ok v else .error .recursionLimit) :
    rereadItems parse depth items =
      if depthOfItems items ≤ depth then .ok items else .error .recursionLimit := by
  induction items with
  | nil => simp [rereadItems, depthOfItems]
  | cons v items ih =>
    obtain ⟨hv, hitems⟩ := List.forall_mem_cons.mp h
    rw [rereadItems, hv, ih hitems, depthOfItems]
    by_cases hfirst : v.depth ≤ depth <;> by_cases hrest : depthOfItems items ≤ depth <;>
      simp [hfirst, hrest, bind, Except.bind]

theorem rereadMembers_of_forall {depth : Nat} {members : Members}
    (h : ∀ m ∈ members, m.2.reread parse depth =
      if m.2.depth ≤ depth then .ok m.2 else .error .recursionLimit) :
    rereadMembers parse depth members =
      if depthOfMembers members ≤ depth then .ok members else .error .recursionLimit := by
  induction members with
  | nil => simp [rereadMembers, depthOfMembers]
  | cons m members ih =>
    obtain ⟨hm, hmembers⟩ := List.forall_mem_cons.mp h
    rw [rereadMembers, hm, ih hmembers, depthOfMembers]
    by_cases hfirst : m.2.depth ≤ depth <;> by_cases hrest : depthOfMembers members ≤ depth <;>
      simp [hfirst, hrest, bind, Except.bind]

/-- If all parts of a value are stable, only its depth matters. -/
theorem reread_of_stable {depth : Nat} {v : Value} (hv : ∀ u ∈ v.parts, u.Stable) :
    v.reread parse depth = if v.depth ≤ depth then .ok v else .error .recursionLimit := by
  induction v using Value.induction generalizing depth with
  | null => simp [Value.reread, Value.depth]
  | bool b => simp [Value.reread, Value.depth]
  | string s => simp [Value.reread, Value.depth]
  | number n =>
    have hn : n.reread = .ok n := hv _ (mem_parts_self _)
    simp [Value.reread, Value.depth, hn, Except.map]
  | array items ih =>
    obtain ⟨-, hitems⟩ := forall_parts_array.mp hv
    rcases depth with - | depth
    · simp [Value.reread, Value.depth]
    · rw [Value.reread, Value.depth,
        @rereadItems_of_forall _ depth _ fun v hmem => ih v hmem (hitems v hmem)]
      by_cases hdepth : depthOfItems items ≤ depth <;> simp [hdepth, Except.map]
  | object members ih =>
    obtain ⟨hmark, hmembers⟩ := forall_parts_object.mp hv
    have hnone : mark? members = none := hmark
    have hmembers := forall_partsOfMembers.mp hmembers
    rcases depth with - | depth
    · simp [Value.reread, Value.depth]
    · simp only [Value.reread, Value.depth, hnone]
      rw [@rereadMembers_of_forall _ depth _ fun m hm => ih m hm (hmembers m hm)]
      by_cases hdepth : depthOfMembers members ≤ depth <;> simp [hdepth, Except.map]

/-- The text of an object alone: if every part of its values is stable, only its depth matters. -/
theorem parseMap_text {row : Members} (hrow : (Value.object row).WellFormed)
    (hstable : ∀ u ∈ partsOfMembers row, u.Stable) :
    parseMap (Value.object row).text =
      if (Value.object row).depth ≤ nestingLimit then .ok row else .error .recursionLimit := by
  have hvalues := forall_partsOfMembers.mp hstable
  have hread : ∀ parse, readMap (some parse) nestingLimit (Value.object row).text.toList =
      if (Value.object row).depth ≤ nestingLimit then .ok (row, []) else
        .error .recursionLimit := by
    intro parse
    rw [Value.text, String.toList_ofList, ← List.append_nil (Value.print _)]
    show readMap (some parse) (126 + 1) _ = _
    have hdepth : (Value.object row).depth ≤ nestingLimit ↔ depthOfMembers row ≤ 126 :=
      Nat.succ_le_succ_iff
    rw [readMap_printed hrow,
      @rereadMembers_of_forall _ 126 _ fun m hm => reread_of_stable (hvalues m hm)]
    simp only [hdepth]
    split <;> rfl
  rw [parseMap, parseAll, embeddedIn, hread]
  split <;> rfl

end

end FreshTag.Json
