/-
FreshTag/Proofs/Change/Interleavings.lean

The pages of several changes, in any order in which each change has its own
pages in order.  What carries a run is how many pages of each change were
taken: the change is pending with the beginning of its row if some of its pages
were taken and not all of them, and not at all otherwise, while everything else
that is pending stays as it was (`Underway`).  One more page keeps this
(`Underway.take`), so every page is read, every change comes out at its last
page, whole, and what was pending before is pending afterwards
(`changes_rejoin`).
-/
import FreshTag.Proofs.Change.Pages
import Mathlib

namespace FreshTag

namespace Change

/-! ### Taking pages -/

namespace Pending

/-- Takes the page of a notification; nothing happens if it cannot be read. -/
def take (pending : Pending) (n : Notification) : Except PageError (Option Event) × Pending :=
  match Page.parse n.rawData with
  | .error cause => (.error cause, pending)
  | .ok p => ((.ok (pending.push n p).1), (pending.push n p).2)

/-- Takes one page after the other, with the answer to each. -/
def takeAll (pending : Pending) :
    List Notification → List (Except PageError (Option Event)) × Pending
  | [] => ([], pending)
  | n :: rest =>
    ((pending.take n).1 :: (takeAll (pending.take n).2 rest).1, (takeAll (pending.take n).2 rest).2)

end Pending

/-! ### Changes in pages -/

/-- A change and the size of the pages it is announced in. -/
structure Message where
  event : Event
  size : Nat

namespace Message

variable (m : Message)

/-- How many pages the row has. -/
def count : Nat :=
  Page.countOf m.size m.event.row

/-- The notification of one of the pages. -/
def notification (number : Nat) : Notification :=
  m.event.notification (Page.ofRow m.size m.event.row number)

/-- The event that a page completes. -/
def emitted (number : Nat) : Option Event :=
  if number = m.count then some m.event else none

/-- What is pending of the change once `taken` of its pages were taken. -/
def underway (taken : Nat) : Option Event :=
  if 0 < taken ∧ taken < m.count then some (m.event.cut (taken * m.size)) else none

theorem count_pos : 1 ≤ m.count :=
  Nat.le_max_left _ _

theorem underway_zero : m.underway 0 = none := by
  simp [underway]

theorem underway_of_count_le {taken : Nat} (h : m.count ≤ taken) : m.underway taken = none := by
  unfold underway
  rw [if_neg]
  exact fun hboth => absurd hboth.2 (Nat.not_lt.mpr h)

variable {m}

/-- All pages together make the whole change. -/
theorem cut_count (hsize : 1 ≤ m.size) : m.event.cut (m.count * m.size) = m.event :=
  cut_eq_self (Page.length_le_countOf_mul hsize m.event.row)

/-- Where some pages of the change were taken, pushing the next one completes the change if it is
the last one.  Otherwise the change is pending with one page more. -/
theorem push_next {pending : Pending} {taken : Nat} (hsize : 1 ≤ m.size)
    (htaken : taken < m.count) (h : pending.get? m.event.md5 = m.underway taken) :
    (pending.push (m.notification (taken + 1)) (Page.ofRow m.size m.event.row (taken + 1))).1 =
        m.emitted (taken + 1) ∧
      ∀ key, (pending.push (m.notification (taken + 1))
          (Page.ofRow m.size m.event.row (taken + 1))).2.get? key =
        if key = m.event.md5 then m.underway (taken + 1) else pending.get? key := by
  have hwhole := cut_count hsize
  have hget : pending.get? m.event.md5 =
      if taken = 0 then none else some (m.event.cut (taken * m.size)) := by
    rw [h, underway]
    by_cases hzero : taken = 0
    · simp [hzero]
    · rw [if_neg hzero, if_pos ⟨by omega, htaken⟩]
  have hpush : pending.push (m.notification (taken + 1))
      (Page.ofRow m.size m.event.row (taken + 1)) =
        if taken + 1 = m.count then
          (some (m.event.cut ((taken + 1) * m.size)),
            if m.count = 1 then pending else pending.erase m.event.md5)
        else (none, pending.set m.event.md5 (m.event.cut ((taken + 1) * m.size))) :=
    push_ofRow htaken hget
  rw [hpush]
  by_cases hlast : taken + 1 = m.count
  · rw [if_pos hlast]
    refine ⟨?_, fun key => ?_⟩
    · rw [emitted, if_pos hlast, hlast, hwhole]
    · rw [underway_of_count_le m (Nat.le_of_eq hlast.symm)]
      by_cases hone : m.count = 1
      · -- a single page leaves alone what is pending, and its own digest is not
        obtain rfl : taken = 0 := by omega
        rw [if_pos hone]
        split
        · next hkey => rw [hkey, h, underway_zero]
        · rfl
      · rw [if_neg hone]
        exact Dict.get?_erase _ _ _
  · rw [if_neg hlast]
    have hmore : 0 < taken + 1 ∧ taken + 1 < m.count := ⟨by omega, by omega⟩
    refine ⟨?_, fun key => ?_⟩
    · rw [emitted, if_neg hlast]
    · rw [underway, if_pos hmore]
      exact Dict.get?_set _ _ _ _

/-- The next page is read, and pushed. -/
theorem take_next {pending : Pending} {taken : Nat} (hsize : 1 ≤ m.size)
    (hcount : m.count < Number.twoTo 32) (htaken : taken < m.count)
    (h : pending.get? m.event.md5 = m.underway taken) :
    (pending.take (m.notification (taken + 1))).1 = .ok (m.emitted (taken + 1)) ∧
      ∀ key, (pending.take (m.notification (taken + 1))).2.get? key =
        if key = m.event.md5 then m.underway (taken + 1) else pending.get? key := by
  have hproper : (Page.ofRow m.size m.event.row (taken + 1)).Proper :=
    ⟨Nat.le_add_left 1 taken, htaken, hcount⟩
  have hparse : Page.parse (m.notification (taken + 1)).rawData =
      .ok (Page.ofRow m.size m.event.row (taken + 1)) :=
    Page.parse_text hproper
  obtain ⟨hevent, hget⟩ := push_next hsize htaken h
  unfold Pending.take
  rw [hparse]
  exact ⟨congrArg Except.ok hevent, hget⟩

end Message

/-! ### Runs over the pages of all changes -/

section

variable {ι : Type} [DecidableEq ι] (messages : ι → Message)

/-- The pages of all changes, by change and number; each change has its own pages in order. -/
def InOrder (steps : List (ι × Nat)) : Prop :=
  ∀ i, (steps.filter (·.1 = i)).map Prod.snd = List.range' 1 (messages i).count

/-- The notifications of some pages. -/
def announced (steps : List (ι × Nat)) : List Notification :=
  steps.map fun s => (messages s.1).notification s.2

variable {messages}

omit [DecidableEq ι] in
/-- In the middle of a run: of every change some pages were taken, and whatever else was pending at
the beginning still is. -/
structure Underway (messages : ι → Message) (before : Pending) (taken : ι → Nat)
    (pending : Pending) : Prop where
  of_message : ∀ i, pending.get? (messages i).event.md5 = (messages i).underway (taken i)
  of_other : ∀ key, (∀ i, key ≠ (messages i).event.md5) → pending.get? key = before.get? key

/-- The next page of a change counts as taken. -/
theorem Underway.take {before pending : Pending} {taken : ι → Nat}
    (h : Underway messages before taken pending)
    (hmd5 : Function.Injective fun i => (messages i).event.md5) {i : ι}
    (hsize : 1 ≤ (messages i).size) (hcount : (messages i).count < Number.twoTo 32)
    (htaken : taken i < (messages i).count) :
    (pending.take ((messages i).notification (taken i + 1))).1 =
        .ok ((messages i).emitted (taken i + 1)) ∧
      Underway messages before (Function.update taken i (taken i + 1))
        (pending.take ((messages i).notification (taken i + 1))).2 := by
  obtain ⟨hanswer, hget⟩ := Message.take_next hsize hcount htaken (h.of_message i)
  refine ⟨hanswer, ?_, ?_⟩
  · intro j
    rw [hget]
    by_cases hj : j = i
    · subst hj
      rw [if_pos rfl, Function.update_self]
    · have hne : (messages j).event.md5 ≠ (messages i).event.md5 := fun heq => hj (hmd5 heq)
      rw [if_neg hne, Function.update_of_ne hj, h.of_message]
  · intro key hkey
    rw [hget, if_neg (hkey i), h.of_other key hkey]

/-- Where the pages that are still to come follow those that were taken, they are all read, every
last one completes its change, and in the end nothing of the changes is pending. -/
theorem Underway.takeAll {before : Pending}
    (hmd5 : Function.Injective fun i => (messages i).event.md5)
    (hsize : ∀ i, 1 ≤ (messages i).size) (hcount : ∀ i, (messages i).count < Number.twoTo 32)
    (hnew : ∀ i, before.get? (messages i).event.md5 = none) :
    ∀ {steps : List (ι × Nat)} {taken : ι → Nat} {pending : Pending},
      Underway messages before taken pending →
      (∀ i, (steps.filter (·.1 = i)).map Prod.snd =
        List.range' (taken i + 1) ((messages i).count - taken i)) →
      (pending.takeAll (announced messages steps)).1 =
          steps.map (fun s => .ok ((messages s.1).emitted s.2)) ∧
        ∀ key, (pending.takeAll (announced messages steps)).2.get? key = before.get? key
  -- on the pages that are still to come
  | [], taken, pending, h, horder => by
    refine ⟨rfl, fun key => ?_⟩
    show pending.get? key = _
    by_cases hkey : ∃ i, key = (messages i).event.md5
    · obtain ⟨i, rfl⟩ := hkey
      have hnone : (messages i).count - taken i = 0 := by
        simpa using congrArg List.length (horder i).symm
      rw [h.of_message, hnew, Message.underway_of_count_le _ (by omega)]
    · exact h.of_other key (not_exists.mp hkey)
  | (i, number) :: rest, taken, pending, h, horder => by
    have hi := horder i
    rw [List.filter_cons_of_pos (by simp), List.map_cons] at hi
    -- so a page of the change is to come, and it is the next one
    obtain ⟨n, hn⟩ : ∃ n, (messages i).count - taken i = n + 1 := by
      rcases hzero : (messages i).count - taken i with - | n
      · rw [hzero] at hi
        cases hi
      · exact ⟨n, rfl⟩
    rw [hn, List.range'_succ] at hi
    obtain ⟨hnumber, hrest⟩ := List.cons.inj hi
    obtain rfl : number = taken i + 1 := hnumber
    obtain ⟨hanswer, hnext⟩ := h.take hmd5 (hsize i) (hcount i) (by omega)
    have horder' : ∀ j, (rest.filter (·.1 = j)).map Prod.snd =
        List.range' (Function.update taken i (taken i + 1) j + 1)
          ((messages j).count - Function.update taken i (taken i + 1) j) := by
      intro j
      by_cases hj : j = i
      · subst hj
        have hleft : (messages j).count - (taken j + 1) = n := by omega
        rw [Function.update_self, hleft]
        exact hrest
      · have hskip := horder j
        rw [List.filter_cons_of_neg (by simpa using Ne.symm hj)] at hskip
        rw [Function.update_of_ne hj]
        exact hskip
    obtain ⟨hanswers, hafter⟩ := Underway.takeAll hmd5 hsize hcount hnew hnext horder'
    refine ⟨?_, hafter⟩
    rw [List.map_cons, ← hanswers]
    exact congrArg (· :: _) hanswer

/-- Of all the pages exactly one is the last page of a change. -/
theorem InOrder.count_last {steps : List (ι × Nat)} (h : InOrder messages steps) (i : ι) :
    steps.count (i, (messages i).count) = 1 := by
  have hcount : steps.count (i, (messages i).count) =
      ((steps.filter (·.1 = i)).map Prod.snd).count (messages i).count := by
    unfold List.count
    rw [List.countP_map, List.countP_filter]
    refine List.countP_congr fun s _ => ?_
    rcases s with ⟨j, number⟩
    simp [and_comm]
  have hmem : (messages i).count ∈ List.range' 1 (messages i).count := by
    rw [List.mem_range'_1]
    have hpos := (messages i).count_pos
    omega
  rw [hcount, h i]
  exact List.count_eq_one_of_mem List.nodup_range' hmem

/-- What is emitted at the pages is every change, once. -/
theorem InOrder.count_emitted (hmd5 : Function.Injective fun i => (messages i).event.md5)
    {steps : List (ι × Nat)} (h : InOrder messages steps) (i : ι) :
    (steps.map fun s => (Except.ok ((messages s.1).emitted s.2) : Except PageError _)).count
      (.ok (some (messages i).event)) = 1 := by
  rw [← h.count_last i]
  unfold List.count
  rw [List.countP_map]
  refine List.countP_congr fun s _ => ?_
  rcases s with ⟨j, number⟩
  simp only [Function.comp_apply, beq_iff_eq, Except.ok.injEq, Message.emitted,
    Option.ite_none_right_eq_some, Option.some.injEq, Prod.mk.injEq]
  -- changes with one digest are one change
  constructor
  · rintro ⟨hnumber, hevent⟩
    obtain rfl : j = i := hmd5 (congrArg Event.md5 hevent)
    exact ⟨rfl, hnumber⟩
  · rintro ⟨rfl, hnumber⟩
    exact ⟨hnumber, rfl⟩

/-- However the pages of changes with different digests come between each other, each change with
its own pages in order: where none of the digests is pending, every page is read, a change results
at its last page, with its row as it was, and at no other page, so that it results exactly once,
and what is pending afterwards is what was pending before. -/
theorem changes_rejoin (hmd5 : Function.Injective fun i => (messages i).event.md5)
    (hsize : ∀ i, 1 ≤ (messages i).size) (hcount : ∀ i, (messages i).count < Number.twoTo 32)
    {pending : Pending} (hnew : ∀ i, pending.get? (messages i).event.md5 = none)
    {steps : List (ι × Nat)} (horder : InOrder messages steps) :
    ∃ answers after, pending.takeAll (announced messages steps) = (answers, after) ∧
      answers = (steps.map fun s =>
        .ok (if s.2 = (messages s.1).count then some (messages s.1).event else none)) ∧
      (∀ i, answers.count (.ok (some (messages i).event)) = 1) ∧
      (∀ key, after.get? key = pending.get? key) ∧ after.size = pending.size := by
  have hbegin : Underway messages pending (fun _ => 0) pending := by
    refine ⟨fun i => ?_, fun key _ => rfl⟩
    rw [hnew, Message.underway_zero]
  have hpages : ∀ i, (steps.filter (·.1 = i)).map Prod.snd =
      List.range' (0 + 1) ((messages i).count - 0) := horder
  obtain ⟨hanswers, hafter⟩ := Underway.takeAll hmd5 hsize hcount hnew hbegin hpages
  refine ⟨_, _, rfl, hanswers, fun i => ?_, hafter, Dict.size_congr fun key => ?_⟩
  · rw [hanswers]
    exact horder.count_emitted hmd5 i
  · rw [Dict.contains, Dict.contains, hafter]

/-! ### Two changes that come between each other -/

/-- Colons and digits in the row, and a last page that is not full. -/
def numbered : Message where
  event := { id := "public.plants", schema := "public", table := "plants", action := .insert,
             oldVersion := none, newVersion := some "10", md5 := "a", row := "1:2:é" }
  size := 2

/-- A row whose last page is full. -/
def umlauts : Message where
  event := { id := "public.plants", schema := "public", table := "plants", action := .update,
             oldVersion := some "10", newVersion := some "11", md5 := "b", row := "äö:9" }
  size := 2

/-- The two changes. -/
def bothChanges (second : Bool) : Message :=
  if second then umlauts else numbered

/-- The first change is pending while the second one begins, and the other way round. -/
def bothInTurn : List (Bool × Nat) :=
  [(false, 1), (true, 1), (false, 2), (true, 2), (false, 3)]

/-- Both changes result, each of them at its last page. -/
theorem changes_rejoin_inTurn :
    InOrder bothChanges bothInTurn ∧
      ∃ answers after, Pending.takeAll ∅ (announced bothChanges bothInTurn) = (answers, after) ∧
        answers = [.ok none, .ok none, .ok none, .ok (some umlauts.event),
          .ok (some numbered.event)] ∧ after.size = 0 := by
  have hmd5 : Function.Injective fun second => (bothChanges second).event.md5 := by
    intro a b h
    cases a <;> cases b
    exacts [rfl, absurd h (by decide), absurd h (by decide), rfl]
  have hsize : ∀ second, 1 ≤ (bothChanges second).size := by decide
  have hcount : ∀ second, (bothChanges second).count < Number.twoTo 32 := by decide
  have horder : InOrder bothChanges bothInTurn := by
    intro second
    cases second <;> decide
  have hnew : ∀ second, (∅ : Pending).get? (bothChanges second).event.md5 = none := fun _ => rfl
  obtain ⟨answers, after, hrun, hanswers, -, -, hleft⟩ :=
    changes_rejoin hmd5 hsize hcount hnew horder
  exact ⟨horder, answers, after, hrun, hanswers.trans rfl, hleft⟩

end

end Change

end FreshTag
