/-
FreshTag/Proofs/Json/Readings.lean

What reading a text can give.  Whatever holds of the simple values and of every
array and object that is built from values that were read, holds of every value
that is read (`readValue_induction`).  So every number is in range and the
members of every object stand in order (`Value.WellFormed`), and no value is an
object with `embeddedKey` as its only key, as that stands for the text under it.
-/
import FreshTag.Json.Reader
import FreshTag.Proofs.Json.Numerals
import FreshTag.Proofs.Json.Values

namespace FreshTag.Json

section

variable {α β : Type} {cs rest : List Char}

/-- What is read in two parts is read if both are. -/
theorem bind_eq_ok {r : Except Error α} {f : α → Except Error β} {y : β}
    (h : (r >>= f) = .ok y) : ∃ x, r = .ok x ∧ f x = .ok y := by
  rcases r with e | x
  · cases h
  · exact ⟨x, rfl, h⟩

theorem map_eq_ok {r : Except Error α} {f : α → β} {y : β}
    (h : r.map f = .ok y) : ∃ x, r = .ok x ∧ f x = y := by
  rcases r with e | x
  · cases h
  · exact ⟨x, rfl, Except.ok.inj h⟩

/-! ### Items and members -/

theorem readItems_forall {P : α → Prop} {item : List Char → Except Error (α × List Char)}
    (hitem : ∀ {cs x rest}, item cs = .ok (x, rest) → P x) {fuel : Nat} {first : Bool}
    {xs : List α} (h : readItems item fuel first cs = .ok (xs, rest)) : ∀ x ∈ xs, P x := by
  induction fuel generalizing first cs xs rest with
  | zero => cases h
  | succ fuel ih =>
    obtain ⟨start, -, h⟩ := bind_eq_ok h
    rcases start with - | start
    · obtain rfl := (Prod.mk.inj (Except.ok.inj h)).1
      nofun
    · obtain ⟨⟨x, behind⟩, hx, h⟩ := bind_eq_ok h
      obtain ⟨⟨xs, last⟩, hxs, h⟩ := bind_eq_ok h
      obtain rfl := (Prod.mk.inj (Except.ok.inj h)).1
      exact List.forall_mem_cons.mpr ⟨hitem hx, ih hxs⟩

theorem readMembers_forall {P : α → Prop} {value : List Char → Except Error (α × List Char)}
    (hvalue : ∀ {cs x rest}, value cs = .ok (x, rest) → P x) {fuel : Nat} {first : Bool}
    {entries : List (String × α)} (h : readMembers value fuel first cs = .ok (entries, rest)) :
    ∀ m ∈ entries, P m.2 := by
  induction fuel generalizing first cs entries rest with
  | zero => cases h
  | succ fuel ih =>
    obtain ⟨start, -, h⟩ := bind_eq_ok h
    rcases start with - | start
    · obtain rfl := (Prod.mk.inj (Except.ok.inj h)).1
      nofun
    · obtain ⟨⟨key, behind⟩, -, h⟩ := bind_eq_ok h
      obtain ⟨behind, -, h⟩ := bind_eq_ok h
      obtain ⟨⟨x, behind⟩, hx, h⟩ := bind_eq_ok h
      obtain ⟨⟨entries, last⟩, hentries, h⟩ := bind_eq_ok h
      obtain rfl := (Prod.mk.inj (Except.ok.inj h)).1
      exact List.forall_mem_cons.mpr ⟨hvalue hx, ih hentries⟩

/-- The first key of an object is the one that is read first. -/
theorem readMembers_head {value : List Char → Except Error (α × List Char)} {fuel : Nat}
    {entries : List (String × α)} (h : readMembers value fuel true cs = .ok (entries, rest)) :
    (nextKey true cs = .ok none ∧ entries = []) ∨
      ∃ inKey behind m, nextKey true cs = .ok (some inKey) ∧
        readString inKey = .ok (m.1, behind) ∧ entries.head? = some m := by
  rcases fuel with - | fuel
  · cases h
  · obtain ⟨start, hstart, h⟩ := bind_eq_ok h
    rcases start with - | start
    · exact .inl ⟨hstart, (Prod.mk.inj (Except.ok.inj h)).1.symm⟩
    · obtain ⟨⟨key, behind⟩, hkey, h⟩ := bind_eq_ok h
      obtain ⟨behind', -, h⟩ := bind_eq_ok h
      obtain ⟨⟨x, behind'⟩, -, h⟩ := bind_eq_ok h
      obtain ⟨⟨entries, last⟩, -, h⟩ := bind_eq_ok h
      obtain rfl := (Prod.mk.inj (Except.ok.inj h)).1
      exact .inr ⟨start, behind, (key, x), hstart, hkey, rfl⟩

end

/-! ### Values -/

section

variable {P : Value → Prop} {parse : String → Except Error Value} {cs rest : List Char} {v : Value}

/-- An embedded text is what the text under the key denotes. -/
theorem readEmbedded_cases (h : readEmbedded parse cs = .ok (v, rest)) :
    ∃ s, parse s = .ok v := by
  unfold readEmbedded at h
  split at h
  · cases h
  · split at h
    · obtain ⟨⟨text, behind⟩, -, h⟩ := bind_eq_ok h
      obtain ⟨w, hparse, h⟩ := bind_eq_ok h
      obtain rfl := (Prod.mk.inj (Except.ok.inj h)).1
      exact ⟨text, hparse⟩
    · cases h

/-- An object is an embedded text, or it is made of its members, of which the first one that was
written has another key than an embedded text. -/
theorem readObject_cases {value : List Char → Except Error (Value × List Char)}
    (h : readObject (some parse) value cs = .ok (v, rest)) :
    (∃ s, parse s = .ok v) ∨
      ∃ entries behind, readMembers value cs.length true cs = .ok (entries, behind) ∧
        v = .object (Members.ofList entries) ∧ ∀ m ∈ entries.head?, m.1 ≠ embeddedKey := by
  -- an object without an embedded text
  have hplain : (∀ m entries behind, readMembers value cs.length true cs = .ok (entries, behind) →
        m ∈ entries.head? → m.1 ≠ embeddedKey) →
      (readMembers value cs.length true cs >>= fun read =>
        closeObject read.2 >>= fun cs => Except.ok (Value.object (Members.ofList read.1), cs)) =
          .ok (v, rest) →
      ∃ entries behind, readMembers value cs.length true cs = .ok (entries, behind) ∧
        v = .object (Members.ofList entries) ∧ ∀ m ∈ entries.head?, m.1 ≠ embeddedKey := by
    intro hfirst h
    obtain ⟨⟨entries, behind⟩, hentries, h⟩ := bind_eq_ok h
    obtain ⟨last, -, h⟩ := bind_eq_ok h
    exact ⟨entries, behind, hentries, (Prod.mk.inj (Except.ok.inj h)).1.symm,
      fun m => hfirst m entries behind hentries⟩
  unfold readObject at h
  obtain ⟨start, hstart, h⟩ := bind_eq_ok h
  rcases start with - | inKey
  · refine .inr (hplain (fun m entries behind hentries hm => ?_) h)
    rcases readMembers_head hentries with ⟨-, rfl⟩ | ⟨inKey, -, -, hkey, -⟩
    · cases hm
    · cases hstart.symm.trans hkey
  · obtain ⟨⟨key, inValue⟩, hkey, h⟩ := bind_eq_ok h
    simp only at h
    split at h
    · obtain ⟨behind, -, h⟩ := bind_eq_ok h
      obtain ⟨⟨u, behind⟩, hembedded, h⟩ := bind_eq_ok h
      obtain ⟨last, -, h⟩ := bind_eq_ok h
      obtain rfl := (Prod.mk.inj (Except.ok.inj h)).1
      exact .inl (readEmbedded_cases hembedded)
    · next hother =>
      refine .inr (hplain (fun m entries behind hentries hm => ?_) h)
      rcases readMembers_head hentries with ⟨-, rfl⟩ | ⟨inKey', behind', n, hstart', hkey', hhead⟩
      · cases hm
      · obtain rfl := Option.some.inj (Except.ok.inj (hstart.symm.trans hstart'))
        obtain rfl : n = m := Option.some.inj (hhead.symm.trans hm)
        obtain rfl := (Prod.mk.inj (Except.ok.inj (hkey.symm.trans hkey'))).1
        exact hother

/-- What a value is read as. -/
theorem readValue_cases {depth : Nat} (h : readValue (some parse) depth cs = .ok (v, rest)) :
    v = .null ∨ (∃ b, v = .bool b) ∨ (∃ n, n.InRange ∧ v = .number n) ∨ (∃ s, v = .string s) ∨
      (∃ d inside items behind, depth = d + 1 ∧ v = .array items ∧
        readItems (readValue (some parse) d) inside.length true inside = .ok (items, behind)) ∨
      ∃ d inside, depth = d + 1 ∧
        readObject (some parse) (readValue (some parse) d) inside = .ok (v, rest) := by
  have hvalue : ∀ {w u : Value} {l l' : List Char},
      (w, l) = (u, l') → u = w := fun h => (Prod.mk.inj h).1.symm
  -- the first character tells which kind of value it is
  rw [readValue] at h
  split at h
  · cases h
  · split at h
    · obtain ⟨⟨s, behind⟩, -, h⟩ := map_eq_ok h
      exact .inr (.inr (.inr (.inl ⟨s, hvalue h⟩)))
    split at h
    · split at h
      · cases h
      · obtain ⟨⟨items, behind⟩, hitems, h⟩ := bind_eq_ok h
        obtain ⟨last, -, h⟩ := bind_eq_ok h
        exact .inr (.inr (.inr (.inr (.inl ⟨_, _, items, behind, rfl, hvalue (Except.ok.inj h),
          hitems⟩))))
    split at h
    · split at h
      · cases h
      · exact .inr (.inr (.inr (.inr (.inr ⟨_, _, rfl, h⟩))))
    split at h
    · obtain ⟨behind, -, h⟩ := map_eq_ok h
      exact .inl (hvalue h)
    split at h
    · obtain ⟨behind, -, h⟩ := map_eq_ok h
      exact .inr (.inl ⟨_, hvalue h⟩)
    split at h
    · obtain ⟨behind, -, h⟩ := map_eq_ok h
      exact .inr (.inl ⟨_, hvalue h⟩)
    split at h
    · obtain ⟨⟨n, behind⟩, hn, h⟩ := map_eq_ok h
      exact .inr (.inr (.inl ⟨n, readNumber_inRange hn, hvalue h⟩))
    split at h
    · obtain ⟨⟨n, behind⟩, hn, h⟩ := map_eq_ok h
      exact .inr (.inr (.inl ⟨n, readNumber_inRange hn, hvalue h⟩))
    · cases h

/-- What is true of simple values, of what embedded texts denote, and of arrays and objects of
which it is true inside, is true of every value that is read. -/
theorem readValue_induction (null : P .null) (bool : ∀ b, P (.bool b))
    (number : ∀ n : Number, n.InRange → P (.number n)) (string : ∀ s, P (.string s))
    (array : ∀ items, (∀ v ∈ items, P v) → P (.array items))
    (object : ∀ entries, (∀ m ∈ entries, P m.2) → (∀ m ∈ entries.head?, m.1 ≠ embeddedKey) →
      P (.object (Members.ofList entries)))
    (embedded : ∀ {s v}, parse s = .ok v → P v) {depth : Nat}
    (h : readValue (some parse) depth cs = .ok (v, rest)) : P v := by
  -- on the depth that is left, which each array and each object takes one level of
  induction depth generalizing cs v rest with
  | zero =>
    rcases readValue_cases h with rfl | ⟨b, rfl⟩ | ⟨n, hn, rfl⟩ | ⟨s, rfl⟩ |
      ⟨_, _, _, _, hdepth, -⟩ | ⟨_, _, hdepth, -⟩
    · exact null
    · exact bool b
    · exact number n hn
    · exact string s
    · cases hdepth
    · cases hdepth
  | succ depth ih =>
    rcases readValue_cases h with rfl | ⟨b, rfl⟩ | ⟨n, hn, rfl⟩ | ⟨s, rfl⟩ |
      ⟨_, inside, items, _, ⟨⟩, rfl, hitems⟩ | ⟨_, inside, ⟨⟩, hobject⟩
    · exact null
    · exact bool b
    · exact number n hn
    · exact string s
    · exact array items (readItems_forall ih hitems)
    · rcases readObject_cases hobject with ⟨s, hs⟩ | ⟨entries, behind, hentries, rfl, hfirst⟩
      · exact embedded hs
      · exact object entries (readMembers_forall ih hentries) hfirst

end

/-! ### Well-formed values -/

/-- A number that a text can denote, or an object whose members stand in order. -/
def Value.Formed : Value → Prop
  | .number n => n.InRange
  | .object members => Members.Sorted members
  | _ => True

/-- So are all values inside. -/
def Value.WellFormed (v : Value) : Prop :=
  ∀ u ∈ v.parts, u.Formed

theorem Value.WellFormed.formed {v : Value} (h : v.WellFormed) : v.Formed :=
  h v (mem_parts_self v)

theorem wellFormed_array {items : List Value} (h : ∀ v ∈ items, v.WellFormed) :
    (Value.array items).WellFormed :=
  forall_parts_array.mpr ⟨trivial, h⟩

theorem wellFormed_ofList {entries : List (String × Value)} (h : ∀ m ∈ entries, m.2.WellFormed) :
    (Value.object (Members.ofList entries)).WellFormed :=
  forall_parts_object.mpr ⟨Members.sorted_ofList entries,
    forall_partsOfMembers.mpr fun m hm => h m (Members.mem_ofList hm)⟩

/-- A value with nothing inside is well-formed if it is formed. -/
theorem wellFormed_simple {v : Value} (h : v.Formed) (hparts : v.parts = [v]) : v.WellFormed := by
  intro u hu
  rw [hparts, List.mem_singleton] at hu
  exact hu ▸ h

theorem wellFormed_readValue {parse : String → Except Error Value}
    (hparse : ∀ {s v}, parse s = .ok v → v.WellFormed) {depth : Nat} {cs rest : List Char}
    {v : Value} (h : readValue (some parse) depth cs = .ok (v, rest)) : v.WellFormed :=
  readValue_induction (P := Value.WellFormed) (wellFormed_simple trivial rfl)
    (fun _ => wellFormed_simple trivial rfl) (fun _ hn => wellFormed_simple hn rfl)
    (fun _ => wellFormed_simple trivial rfl) (fun _ => wellFormed_array)
    (fun _ h _ => wellFormed_ofList h) hparse h

/-- What is true of the values that are read where embedded texts denote such values is true of
all values that texts denote. -/
theorem parseWithin_forall {P : Value → Prop}
    (hread : ∀ {parse : String → Except Error Value}, (∀ {s v}, parse s = .ok v → P v) →
      ∀ {cs v rest}, readValue (some parse) nestingLimit cs = .ok (v, rest) → P v)
    {n : Nat} {s : String} {v : Value} (h : parseWithin n s = .ok v) : P v := by
  -- on how often a text may be embedded in a text
  induction n generalizing s v with
  | zero => cases h
  | succ n ih =>
    obtain ⟨⟨x, behind⟩, hx, h⟩ := bind_eq_ok h
    obtain ⟨⟨⟩, -, h⟩ := bind_eq_ok h
    obtain rfl := Except.ok.inj h
    exact hread ih hx

theorem wellFormed_parseWithin {n : Nat} {s : String} {v : Value} (h : parseWithin n s = .ok v) :
    v.WellFormed :=
  parseWithin_forall (fun hparse _ _ _ h => wellFormed_readValue hparse h) h

/-- The members of an object that a text denotes are well-formed. -/
theorem wellFormed_parseMap {s : String} {members : Members} (h : parseMap s = .ok members) :
    (Value.object members).WellFormed := by
  obtain ⟨⟨x, behind⟩, hx, h⟩ := bind_eq_ok h
  obtain ⟨⟨⟩, -, h⟩ := bind_eq_ok h
  obtain rfl := Except.ok.inj h
  unfold readMap at hx
  split at hx
  · cases hx
  · split at hx
    · split at hx
      · cases hx
      · obtain ⟨⟨entries, behind⟩, hentries, hx⟩ := bind_eq_ok hx
        obtain ⟨last, -, hx⟩ := bind_eq_ok hx
        obtain rfl := (Prod.mk.inj (Except.ok.inj hx)).1
        exact wellFormed_ofList
          (readMembers_forall (wellFormed_readValue wellFormed_parseWithin) hentries)
    · cases hx

/-- No text denotes an object with `embeddedKey` as its only key. -/
theorem parseWithin_ne {n : Nat} {s : String} {v : Value} (h : parseWithin n s = .ok v)
    (x : Value) : v ≠ .object [(embeddedKey, x)] := by
  refine parseWithin_forall (P := (· ≠ .object [(embeddedKey, x)])) (fun hparse _ _ _ h => ?_) h
  refine readValue_induction (P := (· ≠ .object [(embeddedKey, x)])) nofun nofun nofun nofun nofun
    (fun entries _ hfirst hobject => ?_) hparse h
  -- the first key that was written is a key of the object, and another one
  have hmembers := Value.object.inj hobject
  rcases entries with - | ⟨m, entries⟩
  · cases hmembers
  · have hkey : m.1 ∈ (Members.ofList (m :: entries)).map Prod.fst :=
      Members.key_mem_ofList List.mem_cons_self
    rw [hmembers] at hkey
    exact hfirst m rfl (List.mem_singleton.mp hkey)

end FreshTag.Json
