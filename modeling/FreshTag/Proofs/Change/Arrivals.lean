/-
FreshTag/Proofs/Change/Arrivals.lean

Pages in any order: some may be missing or come again, and their counts and
numbers need not fit together.  Only the pages of rows that have several count,
and of these, under each digest, only those that came after the last one that
completed a change (`openPages`).  What is pending is told by them alone: under
each digest the change that its open pages make up (`get?_ofArrivals`), since a
page that is the last of several closes the pages before it, any other one of
several is open with them, and nothing else is touched (`get?_push`,
`openPages_concat`).

So what a page completes can be read off the pages that arrived before it
(`events_follow_history`).
-/
import FreshTag.Change.Reassembly
import Mathlib

namespace FreshTag.Change

/-! ### What has arrived -/

/-- A page and the notification that it came in. -/
structure Arrival where
  notification : Notification
  page : Page

/-- What is pending once some pages have arrived, where nothing was before. -/
def Pending.ofArrivals (arrivals : List Arrival) : Pending :=
  arrivals.foldl (fun pending a => (pending.push a.notification a.page).2) ∅

/-- The page came under the digest and is one of several. -/
def Arrival.isPartOf (digest : String) (a : Arrival) : Bool :=
  a.notification.md5 == digest && !a.page.isSingle

/-- The pages under a digest, of rows of several pages, since the last one that completed a
change. -/
def openPages (digest : String) (arrivals : List Arrival) : List Arrival :=
  (arrivals.filter (·.isPartOf digest)).rtakeWhile (!·.page.isLast)

/-- What some pages make up: the first one says what changed, and the row is what all of them hold,
in the order in which they came. -/
def joined : List Arrival → Option Event
  | [] => none
  | first :: rest =>
    some (.ofNotification first.notification (String.join ((first :: rest).map (·.page.chunk))))

section

variable {arrivals : List Arrival} {a : Arrival} {digest : String}

theorem joined_eq_none_iff : joined arrivals = none ↔ arrivals = [] := by
  cases arrivals <;> simp [joined]

/-- One more page: its chunk is put behind the row, or it is the first one. -/
theorem joined_concat (arrivals : List Arrival) (a : Arrival) :
    joined (arrivals ++ [a]) = some (match joined arrivals with
      | some e => { e with row := e.row ++ a.page.chunk }
      | none => .ofNotification a.notification a.page.chunk) := by
  cases arrivals with
  | nil => simp [joined, String.join_cons]
  | cons first rest =>
    simp [joined, Event.ofNotification, String.join_cons, String.join_append, String.append_assoc]

theorem openPages_concat (digest : String) (arrivals : List Arrival) (a : Arrival) :
    openPages digest (arrivals ++ [a]) =
      if a.isPartOf digest then
        if a.page.isLast then [] else openPages digest arrivals ++ [a]
      else openPages digest arrivals := by
  unfold openPages
  by_cases hpart : a.isPartOf digest
  · rw [List.filter_append, List.filter_singleton, if_pos hpart, hpart, cond_true,
      List.rtakeWhile_concat]
    cases a.page.isLast <;> rfl
  · rw [if_neg hpart, List.filter_append, List.filter_singleton, Bool.eq_false_iff.mpr hpart,
      cond_false, List.append_nil]

/-- The pages under other digests do not matter. -/
theorem openPages_filter (digest : String) (arrivals : List Arrival) :
    openPages digest (arrivals.filter (·.notification.md5 = digest)) =
      openPages digest arrivals := by
  have hparts : ∀ a : Arrival,
      (a.isPartOf digest && decide (a.notification.md5 = digest)) = a.isPartOf digest := by
    intro a
    by_cases hdigest : a.notification.md5 = digest <;> simp [Arrival.isPartOf, hdigest]
  unfold openPages
  simp only [List.filter_filter, hparts]

end

/-! ### One page -/

namespace Pending

variable {pending : Pending} {n : Notification} {p : Page}

theorem push_of_isSingle (h : p.isSingle = true) :
    pending.push n p = (some (.ofNotification n p.chunk), pending) :=
  if_pos h

/-- Of several pages the last one completes a change. -/
theorem push_fst_of_not_isSingle (h : p.isSingle = false) :
    (pending.push n p).1 = if p.isLast then some (pending.extended n p) else none := by
  unfold push
  rw [h, if_neg Bool.false_ne_true]
  cases p.isLast <;> rfl

/-- What a page does to what is pending: something only under its own digest, and only if it is one
of several. -/
theorem get?_push (pending : Pending) (a : Arrival) (digest : String) :
    (pending.push a.notification a.page).2.get? digest =
      if a.isPartOf digest then
        if a.page.isLast then none else some (pending.extended a.notification a.page)
      else pending.get? digest := by
  rcases hsingle : a.page.isSingle
  · have hpart : a.isPartOf digest = true ↔ digest = a.notification.md5 := by
      rw [Arrival.isPartOf, hsingle, Bool.not_false, Bool.and_true, beq_iff_eq, eq_comm]
    unfold push
    rw [hsingle, if_neg Bool.false_ne_true]
    simp only [hpart]
    cases a.page.isLast
    · exact Dict.get?_set _ _ _ _
    · exact Dict.get?_erase _ _ _
  · have hpart : a.isPartOf digest = false := by
      simp [Arrival.isPartOf, hsingle]
    rw [push_of_isSingle hsingle, hpart, if_neg Bool.false_ne_true]

/-! ### All pages -/

theorem ofArrivals_concat (arrivals : List Arrival) (a : Arrival) :
    ofArrivals (arrivals ++ [a]) = ((ofArrivals arrivals).push a.notification a.page).2 :=
  List.foldl_concat _ _ _ _

/-- Where the open pages under a digest are pending, one more page is put behind them. -/
theorem extended_eq_joined {pages : List Arrival} {a : Arrival}
    (h : pending.get? a.notification.md5 = joined pages) :
    some (pending.extended a.notification a.page) = joined (pages ++ [a]) := by
  rw [joined_concat]
  unfold extended
  rcases hpages : joined pages with - | e
  · simp only [h, hpages]
  · simp only [h, hpages]

/-- Under each digest its open pages are pending. -/
theorem get?_ofArrivals (arrivals : List Arrival) (digest : String) :
    (ofArrivals arrivals).get? digest = joined (openPages digest arrivals) := by
  -- on what has arrived, of which the last page came to what the others had left
  induction arrivals using List.reverseRecOn generalizing digest with
  | nil => rfl
  | append_singleton arrivals a ih =>
    rw [ofArrivals_concat, get?_push, openPages_concat]
    by_cases hpart : a.isPartOf digest = true
    · obtain rfl : a.notification.md5 = digest := by
        simpa using (Bool.and_eq_true_iff.mp hpart).1
      rw [if_pos hpart, if_pos hpart]
      cases a.page.isLast
      · exact extended_eq_joined (ih a.notification.md5)
      · rfl
    · rw [if_neg hpart, if_neg hpart, ih]

/-- What is pending is counted by digest. -/
theorem exists_size_ofArrivals (arrivals : List Arrival) :
    ∃ digests : Finset String, (∀ digest, digest ∈ digests ↔ openPages digest arrivals ≠ []) ∧
      (ofArrivals arrivals).size = digests.card := by
  refine ⟨(ofArrivals arrivals).keys.toFinset, fun digest => ?_, ?_⟩
  · rw [List.mem_toFinset, Dict.mem_keys, Dict.contains, get?_ofArrivals, Option.isSome_iff_ne_none,
      Ne, joined_eq_none_iff]
  · rw [← Dict.length_keys]
    exact (List.toFinset_card_of_nodup (ofArrivals arrivals).nodup).symm

/-- Whatever pages have arrived, missing, coming again or out of order: the only page of a row
completes its change at once and leaves everything as it is pending.  One of several pages completes
a change exactly if its number is the count that it gives, and then the change is what the first of
the open pages under its digest says, with what they all hold, this page last, for its row.  As many
changes are pending as digests have open pages, and what a page completes is what it would complete
if only the pages under its own digest had arrived. -/
theorem events_follow_history (arrivals : List Arrival) (n : Notification) (p : Page) :
    (p.isSingle = true →
      (ofArrivals arrivals).push n p = (some (.ofNotification n p.chunk), ofArrivals arrivals)) ∧
    (p.isSingle = false →
      (p.number ≠ p.count → ((ofArrivals arrivals).push n p).1 = none) ∧
      (p.number = p.count → ∃ first rest,
        openPages n.md5 arrivals ++ [⟨n, p⟩] = first :: rest ∧
        ((ofArrivals arrivals).push n p).1 = some (.ofNotification first.notification
          (String.join ((first :: rest).map (·.page.chunk)))))) ∧
    (∃ digests : Finset String, (∀ digest, digest ∈ digests ↔ openPages digest arrivals ≠ []) ∧
      (ofArrivals arrivals).size = digests.card) ∧
    ((ofArrivals arrivals).push n p).1 =
      ((ofArrivals (arrivals.filter (·.notification.md5 = n.md5))).push n p).1 := by
  have hget := get?_ofArrivals arrivals n.md5
  refine ⟨push_of_isSingle, fun hsingle => ⟨fun hlast => ?_, fun hlast => ?_⟩,
    exists_size_ofArrivals arrivals, ?_⟩
  · rw [push_fst_of_not_isSingle hsingle, if_neg]
    simpa [Page.isLast] using hlast
  · obtain ⟨first, rest, hpages⟩ : ∃ first rest,
        openPages n.md5 arrivals ++ [⟨n, p⟩] = first :: rest :=
      List.exists_cons_of_ne_nil (by simp)
    refine ⟨first, rest, hpages, ?_⟩
    have hextended := extended_eq_joined (a := ⟨n, p⟩) hget
    rw [push_fst_of_not_isSingle hsingle, if_pos (by simpa [Page.isLast] using hlast), hextended,
      hpages]
    rfl
  · -- what a page completes depends on what is pending under its digest
    have hsame : (ofArrivals (arrivals.filter (·.notification.md5 = n.md5))).get? n.md5 =
        (ofArrivals arrivals).get? n.md5 := by
      rw [get?_ofArrivals, openPages_filter, hget]
    rcases hsingle : p.isSingle
    · rw [push_fst_of_not_isSingle hsingle, push_fst_of_not_isSingle hsingle, extended, extended,
        hsame]
    · rw [push_of_isSingle hsingle, push_of_isSingle hsingle]

-- A first page that comes twice is in the row twice, and a page for itself is not in it.
example :
    ((ofArrivals [⟨default, 2, 1, "a"⟩, ⟨default, 2, 1, "b"⟩, ⟨default, 1, 1, "c"⟩]).push
      default ⟨3, 3, "d"⟩).1 = some (.ofNotification default "abd") := by
  decide

end Pending

end FreshTag.Change
