/-
FreshTag/Proofs/Change/Pages.lean

Cutting a row into pages and joining them again.  `Page.text` writes a page the
way the trigger does, and reading it gives the page back (`Page.parse_text`).
`Event.notifications size` are the notifications of a change whose row is cut
into pages of at most `size` characters.  Pushed one after the other onto
nothing, they complete exactly that change, with the last page, and leave
nothing pending (`joins_notifications`).
-/
import FreshTag.Change.Reassembly

namespace FreshTag.Change

/-! ### The text of a page -/

theorem colon_not_mem_toDigits (n : Nat) : ':' ∉ Nat.toDigits 10 n := by
  intro h
  have hdigit := Nat.isDigit_of_mem_toDigits (by decide) (by decide) h
  exact absurd hdigit (by decide)

namespace Page

/-- A page that can be read: it is one of its pages, and their count has 32 bits. -/
structure Proper (p : Page) : Prop where
  pos : 1 ≤ p.number
  le : p.number ≤ p.count
  bounded : p.count < Number.twoTo 32

/-- Count, number and chunk, with colons between them. -/
def text (p : Page) : String :=
  String.ofList (Nat.toDigits 10 p.count ++ ':' :: (Nat.toDigits 10 p.number ++ ':' ::
    p.chunk.toList))

theorem header?_toDigits {n : Nat} (h : n < Number.twoTo 32) :
    header? (Nat.toDigits 10 n) = some n := by
  have hdigits : (Nat.toDigits 10 n).all Char.isDigit = true := by
    rw [List.all_eq_true]
    exact fun c hc => Nat.isDigit_of_mem_toDigits (by decide) (by decide) hc
  unfold header?
  rw [if_pos ⟨Nat.toDigits_ne_nil, hdigits⟩]
  simp [Nat.ofDigitChars_ten_toDigits, h]

/-- A page is read from its text. -/
theorem parse_text {p : Page} (h : p.Proper) : parse p.text = .ok p := by
  have hnumber : p.number < Number.twoTo 32 := Nat.lt_of_le_of_lt h.le h.bounded
  unfold parse text
  simp only [String.toList_ofList]
  rw [Text.cutFirst_append (colon_not_mem_toDigits p.count)]
  simp only
  rw [Text.cutFirst_append (colon_not_mem_toDigits p.number)]
  simp only
  rw [header?_toDigits h.bounded, header?_toDigits hnumber]
  simp [h.pos, h.le]

/-! ### The pages of a row -/

/-- How many pages of `size` characters a row has, at least one. -/
def countOf (size : Nat) (row : String) : Nat :=
  max 1 ((row.length + size - 1) / size)

/-- A page of a row. -/
def ofRow (size : Nat) (row : String) (number : Nat) : Page where
  count := countOf size row
  number
  chunk := String.ofList ((row.toList.drop ((number - 1) * size)).take size)

theorem length_le_countOf_mul {size : Nat} (hsize : 1 ≤ size) (row : String) :
    row.length ≤ countOf size row * size := by
  have hceil : row.length ≤ (row.length + size - 1) / size * size := by
    have hmod := Nat.div_add_mod (row.length + size - 1) size
    have hlt := Nat.mod_lt (row.length + size - 1) hsize
    rw [Nat.mul_comm] at hmod
    omega
  calc row.length ≤ (row.length + size - 1) / size * size := hceil
    _ ≤ countOf size row * size := Nat.mul_le_mul_right _ (Nat.le_max_right _ _)

theorem countOf_lt {size : Nat} (hsize : 1 ≤ size) {row : String}
    (h : row.length < Number.twoTo 32) : countOf size row < Number.twoTo 32 := by
  have hle : (row.length + size - 1) / size ≤ row.length := by
    rw [Nat.div_le_iff_le_mul_add_pred hsize]
    have := Nat.mul_le_mul_right row.length hsize
    omega
  have hone : 1 < Number.twoTo 32 := by decide
  exact Nat.max_lt.mpr ⟨hone, Nat.lt_of_le_of_lt hle h⟩

/-- The first pages together are the beginning of the row. -/
theorem take_append_ofRow (size : Nat) (row : String) (k : Nat) :
    String.ofList (row.toList.take (k * size)) ++ (ofRow size row (k + 1)).chunk =
      String.ofList (row.toList.take ((k + 1) * size)) := by
  simp only [ofRow, Nat.add_sub_cancel]
  rw [← String.ofList_append, ← List.take_add, Nat.succ_mul]

end Page

/-- What a change announces on one of its pages. -/
def Event.notification (e : Event) (p : Page) : Notification where
  id := e.id
  schema := e.schema
  table := e.table
  action := e.action
  oldVersion := e.oldVersion
  newVersion := e.newVersion
  md5 := e.md5
  rawData := p.text

/-- The notifications of a change, in pages of `size` characters. -/
def Event.notifications (size : Nat) (e : Event) : List Notification :=
  (List.range' 1 (Page.countOf size e.row)).map fun number =>
    e.notification (Page.ofRow size e.row number)

/-! ### Joining the pages -/

/-- Notifications of which the last one completes a change, and the earlier ones nothing. -/
inductive Joins : Pending → List Notification → Event → Pending → Prop
  | last {pending pending' : Pending} {n : Notification} {p : Page} {e : Event} :
    Page.parse n.rawData = .ok p → pending.push n p = (some e, pending') →
    Joins pending [n] e pending'
  | more {pending mid pending' : Pending} {n : Notification} {rest : List Notification} {p : Page}
    {e : Event} :
    Page.parse n.rawData = .ok p → pending.push n p = (none, mid) → Joins mid rest e pending' →
    Joins pending (n :: rest) e pending'

/-- The change, with only the beginning of its row. -/
def Event.cut (e : Event) (length : Nat) : Event :=
  { e with row := String.ofList (e.row.toList.take length) }

section

variable {size : Nat} {e : Event}

/-- The next page continues what is pending of the change. -/
theorem extended_ofRow {pending : Pending} {k : Nat}
    (h : pending.get? e.md5 = if k = 0 then none else some (e.cut (k * size))) :
    pending.extended (e.notification (Page.ofRow size e.row (k + 1)))
      (Page.ofRow size e.row (k + 1)) = e.cut ((k + 1) * size) := by
  have hrow := Page.take_append_ofRow size e.row k
  have hmd5 : (e.notification (Page.ofRow size e.row (k + 1))).md5 = e.md5 := rfl
  unfold Pending.extended
  rw [hmd5, h]
  by_cases hk : k = 0
  · subst hk
    rw [Nat.zero_mul, List.take_zero, String.ofList_nil, String.empty_append] at hrow
    simp only [if_true, Event.ofNotification, Event.notification, Event.cut, hrow]
  · simp only [if_neg hk, Event.cut, hrow]

/-- Where `k` pages were taken, the next one completes the change if it is the last one.  Otherwise
the change is pending with one page more. -/
theorem push_ofRow {pending : Pending} {k : Nat} (hcount : k < Page.countOf size e.row)
    (h : pending.get? e.md5 = if k = 0 then none else some (e.cut (k * size))) :
    pending.push (e.notification (Page.ofRow size e.row (k + 1))) (Page.ofRow size e.row (k + 1)) =
      if k + 1 = Page.countOf size e.row then
        (some (e.cut ((k + 1) * size)),
          if Page.countOf size e.row = 1 then pending else pending.erase e.md5)
      else (none, pending.set e.md5 (e.cut ((k + 1) * size))) := by
  have hextended := extended_ofRow h
  unfold Pending.push
  by_cases hone : Page.countOf size e.row = 1
  · -- a single page leaves alone what is pending
    obtain rfl : k = 0 := by omega
    have hsingle : (Page.ofRow size e.row (0 + 1)).isSingle = true := by
      simpa [Page.isSingle, Page.ofRow] using hone
    unfold Pending.extended at hextended
    rw [show (e.notification (Page.ofRow size e.row (0 + 1))).md5 = e.md5 from rfl, h] at hextended
    rw [if_pos hsingle, if_pos hone.symm, if_pos hone]
    exact congrArg (some ·, pending) hextended
  · have hsingle : ¬ (Page.ofRow size e.row (k + 1)).isSingle = true := by
      simpa [Page.isSingle, Page.ofRow] using hone
    rw [if_neg hsingle]
    simp only [hextended]
    by_cases hlast : k + 1 = Page.countOf size e.row
    · have hisLast : (Page.ofRow size e.row (k + 1)).isLast = true := by
        simpa [Page.isLast, Page.ofRow] using hlast
      rw [if_pos hisLast, if_pos hlast, if_neg hone]
      rfl
    · have hisLast : ¬ (Page.ofRow size e.row (k + 1)).isLast = true := by
        simpa [Page.isLast, Page.ofRow] using hlast
      rw [if_neg hisLast, if_neg hlast]
      rfl

/-- Nothing but the first `k` pages of the change is pending. -/
def Event.begun (size : Nat) (e : Event) (k : Nat) : Pending :=
  if k = 0 then ∅ else Dict.set ∅ e.md5 (e.cut (k * size))

/-- Where nothing else is pending, the next page completes the change, or is pending with the ones
before it. -/
theorem push_begun {k : Nat} (hcount : k < Page.countOf size e.row) :
    (e.begun size k).push (e.notification (Page.ofRow size e.row (k + 1)))
        (Page.ofRow size e.row (k + 1)) =
      if k + 1 = Page.countOf size e.row then (some (e.cut ((k + 1) * size)), ∅)
      else (none, e.begun size (k + 1)) := by
  have hget : (e.begun size k).get? e.md5 = if k = 0 then none else some (e.cut (k * size)) := by
    unfold Event.begun
    split
    · rfl
    · rw [Dict.get?_set, if_pos rfl]
  rw [push_ofRow hcount hget]
  by_cases hk : k = 0
  · subst hk
    by_cases hlast : 0 + 1 = Page.countOf size e.row
    · rw [if_pos hlast, if_pos hlast, if_pos hlast.symm]
      rfl
    · rw [if_neg hlast, if_neg hlast]
      rfl
  · have hone : Page.countOf size e.row ≠ 1 := by omega
    simp only [Event.begun, if_neg hk, if_neg hone, Nat.succ_ne_zero, if_false,
      Dict.erase_set_empty, Dict.set_set_empty]

theorem ofRow_proper (hsize : 1 ≤ size) {row : String} (hrow : row.length < Number.twoTo 32)
    {number : Nat} (hpos : 1 ≤ number) (hle : number ≤ Page.countOf size row) :
    (Page.ofRow size row number).Proper :=
  ⟨hpos, hle, Page.countOf_lt hsize hrow⟩

/-- The pages from some place on complete the change. -/
theorem joins_pages (hsize : 1 ≤ size) (hrow : e.row.length < Number.twoTo 32) {k : Nat} :
    ∀ {n : Nat}, k + (n + 1) = Page.countOf size e.row →
      Joins (e.begun size k)
        ((List.range' (k + 1) (n + 1)).map fun number =>
          e.notification (Page.ofRow size e.row number))
        (e.cut (Page.countOf size e.row * size)) ∅
  -- on the number of the pages between the next one and the last one
  | 0, hn => by
    have hpush := @push_begun size e k (by omega)
    rw [if_pos (by omega)] at hpush
    refine .last (Page.parse_text (ofRow_proper hsize hrow (by omega) (by omega))) ?_
    rw [hpush, ← hn]
  | n + 1, hn => by
    have hpush := @push_begun size e k (by omega)
    rw [if_neg (by omega)] at hpush
    rw [List.range'_succ, List.map_cons]
    refine .more (Page.parse_text (ofRow_proper hsize hrow (by omega) (by omega))) hpush ?_
    exact joins_pages hsize hrow (by omega)

theorem cut_eq_self {length : Nat} (h : e.row.length ≤ length) : e.cut length = e := by
  unfold Event.cut
  rw [List.take_of_length_le (by rwa [String.length_toList])]
  simp

/-- The notifications of a change complete it, and leave nothing pending. -/
theorem joins_notifications (hsize : 1 ≤ size) (hrow : e.row.length < Number.twoTo 32) :
    Joins ∅ (e.notifications size) e ∅ := by
  have hcount : 1 ≤ Page.countOf size e.row := Nat.le_max_left _ _
  obtain ⟨n, hn⟩ : ∃ n, Page.countOf size e.row = n + 1 :=
    ⟨Page.countOf size e.row - 1, by omega⟩
  have hjoins := joins_pages (k := 0) hsize hrow (by rw [hn, Nat.zero_add])
  rw [cut_eq_self (Page.length_le_countOf_mul hsize e.row)] at hjoins
  unfold Event.notifications
  rw [hn]
  exact hjoins

/-- A row that fits on one page is announced on one page. -/
theorem notifications_of_length_le (hsize : 1 ≤ size) (h : e.row.length ≤ size) :
    e.notifications size = [e.notification ⟨1, 1, e.row⟩] := by
  have hcount : Page.countOf size e.row = 1 := by
    have hdiv : (e.row.length + size - 1) / size ≤ 1 := by
      rw [Nat.div_le_iff_le_mul_add_pred hsize]
      omega
    exact Nat.max_eq_left hdiv
  have hpage : Page.ofRow size e.row 1 = ⟨1, 1, e.row⟩ := by
    unfold Page.ofRow
    rw [hcount, Nat.sub_self, Nat.zero_mul, List.drop_zero,
      List.take_of_length_le (by rwa [String.length_toList])]
    simp
  unfold Event.notifications
  rw [hcount]
  simp [hpage]

end

end FreshTag.Change
