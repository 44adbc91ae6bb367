/-
FreshTag/Proofs/Change/Messages.lean

What the message of a page may look like.  The fields stand in any order, with
other keys between them, a version is a text, a whole number or `null`, and one
that is unknown may be left out (`Written`).  However it is written, the same
notification is read (`parse_written`).

What carries a run through the members is the set of the keys that have been
read: the draft has the fields under these keys as they are in the end, and no
other fields (`Draft.only`).
-/
import FreshTag.Change.Notification
import FreshTag.Proofs.Json.Records

namespace FreshTag.Change.Notification

open Json (Reads Record Value)

/-! ### Messages -/

/-- The keys of the fields. -/
def keys : List String :=
  ["id", "schema", "table", "action", "old_xmin", "new_xmin", "md5", "raw_data"]

/-- What may stand for a version: its text, a whole number with these digits, or, where it is
unknown, `null` or nothing. -/
inductive VersionAs : Option String → Option Value → Prop
  | text (s : String) : VersionAs (some s) (some (.string s))
  | natural {n : Nat} : n < Number.twoTo 64 →
    VersionAs (some (String.ofList (Nat.toDigits 10 n))) (some (.number (.natural n)))
  | null : VersionAs none (some .null)
  | absent : VersionAs none none

/-- The members of a notification, in the order of its fields. -/
def members (n : Notification) (old new : Option Value) : List (String × Value) :=
  [("id", .string n.id), ("schema", .string n.schema), ("table", .string n.table),
    ("action", .string n.action.name)] ++ (old.map ("old_xmin", ·)).toList ++
    (new.map ("new_xmin", ·)).toList ++ [("md5", .string n.md5), ("raw_data", .string n.rawData)]

/-- Members that say the notification, in any order and with others between them. -/
inductive Written (n : Notification) : List (String × Value) → Prop
  | intro {old new : Option Value} {others ms : List (String × Value)} :
    VersionAs n.oldVersion old → VersionAs n.newVersion new →
    (∀ m ∈ others, m.1 ∉ keys ∧ m.2.Plain) → ms.Perm (n.members old new ++ others) → Written n ms

/-! ### What the fields read -/

/-- What does not start as `null` is read as a version. -/
theorem readVersion_of_ne {c : Char} (hc : Json.Opens c) (hnull : c ≠ 'n') (depth : Nat)
    (cs : List Char) : readVersion depth (c :: cs) = (do
      let (v, cs) ← Json.readValue none depth (c :: cs)
      let version ← versionOf v
      .ok (some version, cs)) := by
  rw [readVersion, Json.readOption_of_ne _ hc hnull]
  rcases Json.readValue none depth (c :: cs) with e | ⟨v, rest⟩
  · rfl
  · show Except.map _ (versionOf v >>= _) = (versionOf v >>= _)
    rcases versionOf v with e | version <;> rfl

/-- What a version stands as is read as the version. -/
theorem reads_version {version : Option String} {v : Value} (h : VersionAs version (some v))
    (depth : Nat) : Reads (readVersion depth) v.print (.ok version) := by
  intro cs hcs
  cases h with
  | text s =>
    have hread := Json.readValue_string none s depth cs
    rw [Value.print]
    rw [Json.printString_append] at hread ⊢
    rw [readVersion_of_ne (by decide) (by decide), hread]
    rfl
  | @natural n h =>
    have hread := Json.reads_number none (n := .natural n) h depth cs hcs
    obtain ⟨c, text, htext, hc⟩ := (Json.numeral_print (.natural n)).exists_cons
    have hopens : Json.Opens c ∧ c ≠ 'n' := by
      rcases hc with rfl | hc
      · decide
      · exact ⟨Json.opens_of_isDigit hc, Json.ne_of_isDigit hc rfl⟩
    rw [Json.reread_natural h, Value.print, htext, List.cons_append] at hread
    rw [Value.print, htext, List.cons_append, readVersion_of_ne hopens.1 hopens.2, hread]
    rfl
  | null => rfl

theorem reads_action (a : Action) (depth : Nat) :
    Reads (readAction depth) (Value.string a.name).print (.ok a) := by
  intro cs _
  have hknown : a.name ∈ Action.all.map Action.name := by cases a <;> decide
  have hname : Action.ofName? a.name = some a := by cases a <;> decide
  rw [Value.print, Json.printString_append, readAction, Json.readVariant,
    Json.skipBlank_cons (by decide)]
  show (Json.readVariantName _ _ >>= _) = _
  rw [Json.readVariantName, Json.readString_printed]
  simp [bind, Except.bind, hknown, hname]
  rfl

/-! ### Drafts -/

/-- The draft that the members make. -/
def draft (n : Notification) (old new : Option Value) : Draft where
  id := some n.id
  schema := some n.schema
  table := some n.table
  action := some n.action
  oldVersion := old.map fun _ => n.oldVersion
  newVersion := new.map fun _ => n.newVersion
  md5 := some n.md5
  rawData := some n.rawData

/-- What is in the draft under the keys that have been read. -/
def Draft.only (d : Draft) (seen : List String) : Draft where
  id := if "id" ∈ seen then d.id else none
  schema := if "schema" ∈ seen then d.schema else none
  table := if "table" ∈ seen then d.table else none
  action := if "action" ∈ seen then d.action else none
  oldVersion := if "old_xmin" ∈ seen then d.oldVersion else none
  newVersion := if "new_xmin" ∈ seen then d.newVersion else none
  md5 := if "md5" ∈ seen then d.md5 else none
  rawData := if "raw_data" ∈ seen then d.rawData else none

section

variable {n : Notification} {old new : Option Value} {seen : List String} {depth : Nat}

/-- What is read where its key was not read before joins the draft. -/
theorem takes_field {α : Type} {key : String} {field : Json.RecordField Draft}
    (hfield : (fields depth).find? (·.name = key) = some field) (put : Draft → α → Draft)
    {read : List Char → Except Json.Error (α × List Char)}
    (hput : ∀ d cs, field.read d cs = (read cs).map fun (x, cs) => (put d x, cs))
    (hfilled : field.filled ((n.draft old new).only seen) = false) {v : Value} {x : α}
    (hread : Reads read v.print (.ok x))
    (honly : put ((n.draft old new).only seen) x = (n.draft old new).only (key :: seen)) :
    Record.Takes ⟨"EventNotification", fields depth⟩ ((n.draft old new).only seen) (key, v)
      ((n.draft old new).only (key :: seen)) :=
  honly ▸ .of_reads hfield put hput hfilled hread

variable (depth)

/-- A member of the notification is taken where its key was not read before. -/
theorem takes_member (hold : VersionAs n.oldVersion old) (hnew : VersionAs n.newVersion new)
    {m : String × Value} (hm : m ∈ n.members old new) (hseen : m.1 ∉ seen) :
    Record.Takes ⟨"EventNotification", fields depth⟩ ((n.draft old new).only seen) m
      ((n.draft old new).only (m.1 :: seen)) := by
  simp only [members, List.mem_append, List.mem_cons, List.not_mem_nil, or_false,
    Option.mem_toList, Option.map_eq_some_iff] at hm
  rcases hm with (((rfl | rfl | rfl | rfl) | ⟨v, rfl, rfl⟩) | ⟨v, rfl, rfl⟩) | rfl | rfl
  · exact takes_field rfl (fun d s => { d with id := some s }) (fun _ _ => rfl)
      (by simp [Draft.only, hseen]) (Json.reads_text n.id) (by simp [Draft.only, draft])
  · exact takes_field rfl (fun d s => { d with schema := some s }) (fun _ _ => rfl)
      (by simp [Draft.only, hseen]) (Json.reads_text n.schema) (by simp [Draft.only, draft])
  · exact takes_field rfl (fun d s => { d with table := some s }) (fun _ _ => rfl)
      (by simp [Draft.only, hseen]) (Json.reads_text n.table) (by simp [Draft.only, draft])
  · exact takes_field rfl (fun d a => { d with action := some a }) (fun _ _ => rfl)
      (by simp [Draft.only, hseen]) (reads_action n.action depth) (by simp [Draft.only, draft])
  · exact takes_field rfl (fun d v => { d with oldVersion := some v }) (fun _ _ => rfl)
      (by simp [Draft.only, hseen]) (reads_version hold depth) (by simp [Draft.only, draft])
  · exact takes_field rfl (fun d v => { d with newVersion := some v }) (fun _ _ => rfl)
      (by simp [Draft.only, hseen]) (reads_version hnew depth) (by simp [Draft.only, draft])
  · exact takes_field rfl (fun d s => { d with md5 := some s }) (fun _ _ => rfl)
      (by simp [Draft.only, hseen]) (Json.reads_text n.md5) (by simp [Draft.only, draft])
  · exact takes_field rfl (fun d s => { d with rawData := some s }) (fun _ _ => rfl)
      (by simp [Draft.only, hseen]) (Json.reads_text n.rawData) (by simp [Draft.only, draft])

theorem mem_keys_of_mem_members {m : String × Value} (hm : m ∈ n.members old new) :
    m.1 ∈ keys := by
  simp only [members, List.mem_append, List.mem_cons, List.not_mem_nil, or_false,
    Option.mem_toList, Option.map_eq_some_iff] at hm
  rcases hm with (((rfl | rfl | rfl | rfl) | ⟨v, -, rfl⟩) | ⟨v, -, rfl⟩) | rfl | rfl <;>
    simp [keys]

/-- Any other key is passed over. -/
theorem takes_other {key : String} (hkey : key ∉ keys) {v : Value} (hv : v.Plain) (d : Draft) :
    Record.Takes ⟨"EventNotification", fields depth⟩ d (key, v) d := by
  refine .unknown d (List.find?_eq_none.mpr ?_) hv
  simpa [keys, fields, eq_comm] using hkey

/-! ### Runs -/

/-- Members in any order, of which no field stands twice, are taken one after the other. -/
theorem exists_run (hold : VersionAs n.oldVersion old) (hnew : VersionAs n.newVersion new)
    {ms : List (String × Value)}
    (hms : ∀ m ∈ ms, m ∈ n.members old new ∨ m.1 ∉ keys ∧ m.2.Plain)
    (honce : ms.Pairwise fun m m' => m.1 = m'.1 → m.1 ∉ keys)
    (hseen : ∀ m ∈ ms, m.1 ∈ keys → m.1 ∉ seen) :
    ∃ seen', Record.Run ⟨"EventNotification", fields depth⟩ ((n.draft old new).only seen) ms
        ((n.draft old new).only seen') ∧
      ∀ key ∈ keys, key ∈ seen' ↔ key ∈ seen ∨ key ∈ ms.map Prod.fst := by
  induction ms generalizing seen with
  | nil => exact ⟨seen, .nil _, by simp⟩
  | cons m ms ih =>
    obtain ⟨hm, hms⟩ := List.forall_mem_cons.mp hms
    obtain ⟨hother, honce⟩ := List.pairwise_cons.mp honce
    obtain ⟨hfresh, hseen⟩ := List.forall_mem_cons.mp hseen
    by_cases hkey : m.1 ∈ keys
    · have htakes := takes_member depth hold hnew (hm.resolve_right fun h => h.1 hkey)
        (hfresh hkey)
      have hnext : ∀ m' ∈ ms, m'.1 ∈ keys → m'.1 ∉ m.1 :: seen := by
        intro m' hm' hkey' hmem
        rcases List.mem_cons.mp hmem with heq | hmem
        · exact hother m' hm' heq.symm hkey
        · exact hseen m' hm' hkey' hmem
      obtain ⟨seen', hrun, hiff⟩ := ih hms honce hnext
      refine ⟨seen', .cons htakes hrun, fun key hk => ?_⟩
      rw [hiff key hk, List.map_cons, List.mem_cons, List.mem_cons, or_assoc, or_left_comm]
    · have htakes := takes_other depth hkey
        (hm.resolve_left fun h => hkey (mem_keys_of_mem_members h)).2 ((n.draft old new).only seen)
      obtain ⟨seen', hrun, hiff⟩ := ih hms honce hseen
      refine ⟨seen', .cons htakes hrun, fun key hk => ?_⟩
      have hne : key ≠ m.1 := fun heq => hkey (heq ▸ hk)
      rw [hiff key hk, List.map_cons, List.mem_cons, or_iff_right hne]

end

/-! ### Messages read alike -/

section

variable {n : Notification} {old new : Option Value}

/-- Where all members have been read, the draft is whole. -/
theorem only_eq_draft {seen : List String} (h : ∀ m ∈ n.members old new, m.1 ∈ seen) :
    (n.draft old new).only seen = n.draft old new := by
  -- a version that was left out is not in the draft either
  rcases old with - | old <;> rcases new with - | new <;> simp [members] at h <;>
    simp [Draft.only, draft, h]

theorem complete_draft (depth : Nat) :
    Record.complete ⟨"EventNotification", fields depth⟩ (n.draft old new) =
      .ok (n.draft old new) :=
  rfl

theorem VersionAs.getD {version : Option String} {o : Option Value} (h : VersionAs version o) :
    (o.map fun _ => version).getD none = version := by
  cases h <;> rfl

theorem notification_draft (hold : VersionAs n.oldVersion old)
    (hnew : VersionAs n.newVersion new) : (n.draft old new).notification = n := by
  obtain ⟨id, schema, table, action, oldVersion, newVersion, md5, rawData⟩ := n
  simp only [Draft.notification, draft, hold.getD, hnew.getD, Option.getD_some]

/-- No field stands twice among the members of a notification and others. -/
theorem pairwise_members {others : List (String × Value)} (hothers : ∀ m ∈ others, m.1 ∉ keys) :
    (n.members old new ++ others).Pairwise fun m m' => m.1 = m'.1 → m.1 ∉ keys := by
  refine List.pairwise_append.mpr ⟨?_, ?_, fun m _ m' hm' heq => heq ▸ hothers m' hm'⟩
  · rcases old with - | old <;> rcases new with - | new <;> simp [members]
  · exact List.pairwise_of_forall_mem_list fun m hm _ _ _ => hothers m hm

/-- However it is written, the notification is read. -/
theorem parse_written {ms : List (String × Value)} (h : Written n ms) :
    parse (Value.object ms).text = .ok n := by
  obtain @⟨old, new, others, ms, hold, hnew, hothers, hperm⟩ := h
  have honce : ms.Pairwise fun m m' => m.1 = m'.1 → m.1 ∉ keys :=
    (hperm.pairwise_iff fun h heq => heq ▸ h heq.symm).mpr
      (pairwise_members fun m hm => (hothers m hm).1)
  have hms : ∀ m ∈ ms, m ∈ n.members old new ∨ m.1 ∉ keys ∧ m.2.Plain := fun m hm =>
    (List.mem_append.mp (hperm.mem_iff.mp hm)).imp_right (hothers m)
  have hfresh : ∀ m ∈ ms, m.1 ∈ keys → m.1 ∉ [] := fun _ _ _ => List.not_mem_nil
  obtain ⟨seen, hrun, hiff⟩ := exists_run 126 hold hnew hms honce hfresh
  have hall : ∀ m ∈ n.members old new, m.1 ∈ seen := fun m hm =>
    (hiff m.1 (mem_keys_of_mem_members hm)).mpr
      (.inr (List.mem_map_of_mem (hperm.mem_iff.mpr (List.mem_append_left others hm))))
  have hempty : (n.draft old new).only [] = {} := by
    simp [Draft.only]
  rw [hempty, only_eq_draft hall] at hrun
  rw [parse, hrun.parseAll_text (complete_draft 126)]
  exact congrArg Except.ok (notification_draft hold hnew)

end

theorem versionAs_ofString? (version : Option String) :
    VersionAs version (some (Value.ofString? version)) := by
  rcases version with - | s
  · exact .null
  · exact .text s

/-- The text of a notification is one of the ways to write it. -/
theorem exists_written_text (n : Notification) :
    ∃ ms, Written n ms ∧ (Value.object ms).text = n.text := by
  refine ⟨_, .intro (versionAs_ofString? n.oldVersion) (versionAs_ofString? n.newVersion)
    (List.forall_mem_nil _) (.of_eq (List.append_nil _).symm), ?_⟩
  obtain ⟨id, schema, table, action, oldVersion, newVersion, md5, rawData⟩ := n
  rcases oldVersion with - | old <;> rcases newVersion with - | new <;> rfl

/-- Every notification is read back from its text, and from any other way to write it: with the
fields in any order, with other keys between them, with a whole number for a version, or without a
version that is unknown. -/
theorem messages_read_alike (n : Notification) :
    parse n.text = .ok n ∧ ∀ ms, Written n ms → parse (Value.object ms).text = .ok n := by
  refine ⟨?_, fun ms => parse_written⟩
  obtain ⟨ms, hms, htext⟩ := n.exists_written_text
  exact htext ▸ parse_written hms

/-- A new oak at the greatest version that is read from a number. -/
def lastOak : Notification where
  id := "public.\"old plants\""
  schema := "public"
  table := "old plants"
  action := .insert
  oldVersion := none
  newVersion := some "18446744073709551615"
  md5 := "oak"
  rawData := "1:1:\x7b\"id\":\"oak\"\x7d"

/-- Written backwards, with the version as a number, the unknown one left out, and other keys. -/
theorem backwardOak_is_read :
    ∃ others, others = [("note", .null), ("note", .string "\"id\":"), ("new", .bool true)] ∧
      parse (Value.object (lastOak.members none (some (.number (.natural 18446744073709551615))) ++
        others).reverse).text = .ok lastOak := by
  refine ⟨_, rfl, (messages_read_alike lastOak).2 _ ?_⟩
  have hdigits : "18446744073709551615" =
      String.ofList (Nat.toDigits 10 18446744073709551615) := by decide
  have hnew : VersionAs lastOak.newVersion (some (.number (.natural 18446744073709551615))) := by
    rw [lastOak, hdigits]
    exact .natural (by decide)
  refine .intro .absent hnew ?_ (List.reverse_perm _)
  simp only [List.forall_mem_cons, List.not_mem_nil, false_implies, implies_true, and_true]
  exact ⟨⟨by decide, .null⟩, ⟨by decide, .string _⟩, by decide, .bool true⟩

end FreshTag.Change.Notification
