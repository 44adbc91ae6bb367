/-
FreshTag/Proofs/Json/Records.lean

What a printed object is read as where a record is expected.  Its members are
taken one after the other (`Record.Takes`): a field that was not read before is
read into the draft, and what stands under any other key is passed over.  A run
through all members (`Record.Run`) ends in the draft that they make, and the
text of the object is read as that draft, if it is complete
(`Record.Run.parseAll_text`).
-/
import FreshTag.Json.Record
import FreshTag.Proofs.Json.Rereading

namespace FreshTag.Json

/-! ### Printed strings -/

theorem readTextValue_printed (s : String) (cs : List Char) :
    readTextValue (printString s ++ cs) = .ok (s, cs) := by
  rw [printString_append, readTextValue, readStringValue, skipBlank_cons (by decide)]
  simp [readString_printed]

theorem reads_text (s : String) : Reads readTextValue (Value.string s).print (.ok s) :=
  fun cs _ => readTextValue_printed s cs

/-- What does not start as `null` is read as what it is. -/
theorem readOption_of_ne {α : Type} (read : List Char → Except Error (α × List Char)) {c : Char}
    (hc : Opens c) (hnull : c ≠ 'n') (cs : List Char) :
    readOption read (c :: cs) = (read (c :: cs)).map fun (x, cs) => (some x, cs) := by
  unfold readOption
  rw [skipBlank_cons hc]
  split
  · next heq => exact absurd (List.cons.inj heq).1 hnull
  · rfl

/-- A short escape is passed over. -/
theorem skipText_short {e x : Char} (hx : shortEscape? e = some x) (he : e ≠ 'u')
    (cs : List Char) : skipText ('\\' :: e :: cs) = skipText cs := by
  rw [skipText.eq_def]
  simp [hx, he]

/-- An escaped character is passed over. -/
theorem skipText_escapeChar (c : Char) (cs : List Char) :
    skipText (escapeChar c ++ cs) = skipText cs := by
  unfold escapeChar
  -- seven characters have a short escape
  iterate 7
    split
    · next h =>
      subst h
      exact skipText_short rfl (by decide) cs
  split
  · next hcontrol =>
    show skipText ('\\' :: 'u' :: '0' :: '0' :: Text.hexDigit (c.toNat / 16) ::
      Text.hexDigit (c.toNat % 16) :: cs) = _
    rw [skipText.eq_def]
    simp [hex₄?_control hcontrol]
  · next hquote hback _ _ _ _ _ hcontrol =>
    show skipText (c :: cs) = _
    rw [skipText.eq_def]
    simp [hquote, hback, hcontrol]

theorem skipText_escaped (cs rest : List Char) :
    skipText (cs.flatMap escapeChar ++ '"' :: rest) = .ok rest := by
  induction cs with
  | nil => exact skipText.eq_def _
  | cons c cs ih => rw [List.flatMap_cons, List.append_assoc, skipText_escapeChar, ih]

/-! ### Values that are passed over -/

/-- A value that is neither a number nor has anything inside. -/
inductive Value.Plain : Value → Prop
  | null : Plain .null
  | bool (b : Bool) : Plain (.bool b)
  | string (s : String) : Plain (.string s)

theorem skipWithin_plain {v : Value} (hv : v.Plain) (fuel : Nat) (cs : List Char) :
    skipWithin (fuel + 1) [] (v.print ++ cs) = .ok cs := by
  cases hv with
  | null => rfl
  | bool b => cases b <;> rfl
  | string s =>
    rw [Value.print, printString_append, skipWithin, skipBlank_cons (by decide)]
    simp only [if_true, skipText_escaped]
    rfl

theorem skipValue_plain {v : Value} (hv : v.Plain) (cs : List Char) :
    skipValue (v.print ++ cs) = .ok cs := by
  obtain ⟨c, text, htext, -⟩ := exists_print v
  have hlength : (v.print ++ cs).length = (text ++ cs).length + 1 := by
    rw [htext]
    rfl
  rw [skipValue, hlength, skipWithin_plain hv]

namespace Record

variable {σ : Type} (r : Record σ)

/-! ### Members -/

/-- A field is read where its key stands, if it was not read before. -/
theorem readMembers_led {key : String} {field : RecordField σ}
    (hfield : r.fields.find? (·.name = key) = some field) (fuel : Nat) (first : Bool) {draft : σ}
    (hfilled : field.filled draft = false) (text cs : List Char) :
    r.readMembers (fuel + 1) first draft (led first (printMember key text ++ cs)) = (do
      let (draft, cs) ← field.read draft (text ++ cs)
      r.readMembers fuel false draft cs) := by
  rw [printMember_append, Record.readMembers, nextKey_led]
  show (readString _ >>= _) = _
  rw [readString_printed]
  simp only [bind, Except.bind, hfield, hfilled]
  rfl

/-- A field that takes a text gets the text that was printed. -/
theorem readMembers_text {key : String} {field : RecordField σ}
    (hfield : r.fields.find? (·.name = key) = some field) (put : σ → String → σ)
    (hread : ∀ draft cs,
      field.read draft cs = (readTextValue cs).map fun (s, cs) => (put draft s, cs))
    (fuel : Nat) (first : Bool) {draft : σ} (hfilled : field.filled draft = false) (s : String)
    (cs : List Char) :
    r.readMembers (fuel + 1) first draft (led first (printMember key (printString s) ++ cs)) =
      r.readMembers fuel false (put draft s) cs := by
  rw [readMembers_led r hfield fuel first hfilled, hread, readTextValue_printed]
  rfl

/-- What stands under another key is passed over. -/
theorem readMembers_unknown {key : String} (hfield : r.fields.find? (·.name = key) = none)
    (fuel : Nat) (first : Bool) (draft : σ) {v : Value} (hv : v.Plain) (cs : List Char) :
    r.readMembers (fuel + 1) first draft (led first (printMember key v.print ++ cs)) =
      r.readMembers fuel false draft cs := by
  rw [printMember_append, Record.readMembers, nextKey_led]
  show (readString _ >>= _) = _
  rw [readString_printed]
  simp only [bind, Except.bind, hfield]
  show (skipValue (v.print ++ cs) >>= _) = _
  rw [skipValue_plain hv]
  rfl

/-! ### Runs -/

/-- With the member, the draft `d` becomes the draft `d'`. -/
inductive Takes : σ → String × Value → σ → Prop
  | field {d d' : σ} {key : String} {v : Value} {field : RecordField σ} :
    r.fields.find? (·.name = key) = some field → field.filled d = false →
      Reads (field.read d) v.print (.ok d') → Takes d (key, v) d'
  | unknown (d : σ) {key : String} {v : Value} :
    r.fields.find? (·.name = key) = none → v.Plain → Takes d (key, v) d

/-- With the members, one after the other, the draft `d` becomes the draft `d'`. -/
inductive Run : σ → List (String × Value) → σ → Prop
  | nil (d : σ) : Run d [] d
  | cons {d d' d'' : σ} {m : String × Value} {ms : List (String × Value)} :
    Takes r d m d' → Run d' ms d'' → Run d (m :: ms) d''

variable {r}

/-- A field gets what is read from the value. -/
theorem Takes.of_reads {α : Type} {key : String} {field : RecordField σ}
    (hfield : r.fields.find? (·.name = key) = some field) (put : σ → α → σ)
    {read : List Char → Except Error (α × List Char)}
    (hput : ∀ d cs, field.read d cs = (read cs).map fun (x, cs) => (put d x, cs)) {d : σ}
    (hfilled : field.filled d = false) {v : Value} {x : α} (hread : Reads read v.print (.ok x)) :
    r.Takes d (key, v) (put d x) := by
  refine .field hfield hfilled fun cs hcs => ?_
  rw [hput, hread cs hcs]
  rfl

theorem Takes.readMembers {d d' : σ} {m : String × Value} (h : r.Takes d m d') (fuel : Nat)
    (first : Bool) {cs : List Char} (hcs : Ends cs) :
    r.readMembers (fuel + 1) first d (led first (printMember m.1 m.2.print ++ cs)) =
      r.readMembers fuel false d' cs := by
  cases h with
  | field hfield hfilled hread =>
    rw [readMembers_led r hfield fuel first hfilled, hread cs hcs]
    rfl
  | unknown hfield hv => exact readMembers_unknown r hfield fuel first d hv cs

theorem Run.readMembers {d d' : σ} {ms : List (String × Value)} (h : r.Run d ms d') {fuel : Nat}
    (hfuel : ms.length < fuel) (first : Bool) (rest : List Char) :
    r.readMembers fuel first d (joined first (printMembers ms) ++ '\x7d' :: rest) =
      .ok (d', '\x7d' :: rest) := by
  induction h generalizing fuel first with
  | nil d =>
    obtain ⟨fuel, rfl⟩ := Nat.exists_eq_add_one_of_ne_zero (Nat.ne_zero_of_lt hfuel)
    rfl
  | @cons d d' d'' m ms htakes hrun ih =>
    obtain ⟨fuel, rfl⟩ := Nat.exists_eq_add_one_of_ne_zero (Nat.ne_zero_of_lt hfuel)
    rw [printMembers, joined_cons_append,
      htakes.readMembers fuel first (ends_joined (printMembers ms) (.inr rfl) rest)]
    exact ih (Nat.lt_of_succ_lt_succ hfuel) false

/-- The text of an object is read as the draft that its members make. -/
theorem Run.parseAll_text {name : String} {fields : Nat → List (RecordField σ)} {d d' : σ}
    {ms : List (String × Value)} (h : Run ⟨name, fields 126⟩ d ms d')
    (hcomplete : Record.complete ⟨name, fields 126⟩ d' = .ok d') :
    parseAll (Record.read name fields d nestingLimit) (Value.object ms).text = .ok d' := by
  have hread := h.readMembers (length_members_lt ms '\x7d' []) true []
  have htext : Record.read name fields d nestingLimit (Value.object ms).print = .ok (d', []) := by
    rw [← List.append_nil (Value.print _), print_object_append, Record.read,
      skipBlank_cons (by decide)]
    show (Record.readMembers _ _ true _ _ >>= _) = _
    rw [hread]
    show (Record.complete _ _ >>= _) = _
    rw [hcomplete]
    rfl
  rw [parseAll, Value.text, String.toList_ofList, htext]
  rfl

end Record

end FreshTag.Json
