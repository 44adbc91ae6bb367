/-
FreshTag/Proofs/Change/Payloads.lean

Which payloads a processor takes.  A payload is refused if it is no
notification or its page has no proper header, and then everything stays as it
was.  Otherwise it announces a page (`refused_or_announces`): a page that is
not the last one of its change only joins what is pending, and the last one
completes the change, whatever its row is, whatever the catalog answers and
whatever the cache refuses (`payloads_are_refused_or_taken`).
-/
import FreshTag.Change.Processor
import FreshTag.Proofs.Change.Headers
import Mathlib

namespace FreshTag.Change

/-- Why the trigger did not publish the payload. -/
inductive Refused (payload : String) : PayloadError → Prop
  | notification {cause : Json.Error} :
    Notification.parse payload = .error cause → Refused payload (.notification cause)
  | page {n : Notification} {cause : PageError} :
    Notification.parse payload = .ok n → Page.parse n.rawData = .error cause →
      Refused payload (.page cause)

/-- The payload announces a page of a change. -/
structure Announces (payload : String) (n : Notification) (p : Page) : Prop where
  notification : Notification.parse payload = .ok n
  page : Page.parse n.rawData = .ok p

/-! ### Reading a payload -/

section

variable {payload : String}

theorem readPayload_eq_error_iff {e : PayloadError} :
    readPayload payload = .error e ↔ Refused payload e := by
  constructor
  · intro h
    unfold readPayload at h
    split at h
    · next cause hparse =>
      cases h
      exact .notification hparse
    · next n hparse =>
      split at h
      · next cause hpage =>
        cases h
        exact .page hparse hpage
      · cases h
  · rintro (hparse | ⟨hparse, hpage⟩)
    · simp [readPayload, hparse]
    · simp [readPayload, hparse, hpage]

theorem readPayload_eq_ok_iff {n : Notification} {p : Page} :
    readPayload payload = .ok (n, p) ↔ Announces payload n p := by
  constructor
  · intro h
    unfold readPayload at h
    split at h
    · cases h
    · next n hparse =>
      split at h
      · cases h
      · next p hpage =>
        cases h
        exact ⟨hparse, hpage⟩
  · rintro ⟨hparse, hpage⟩
    simp [readPayload, hparse, hpage]

/-- Every payload is refused, or it announces a page. -/
theorem refused_or_announces (payload : String) :
    (∃ e, Refused payload e) ∨ ∃ n p, Announces payload n p := by
  rcases hread : readPayload payload with e | ⟨n, p⟩
  · exact .inl ⟨e, readPayload_eq_error_iff.mp hread⟩
  · exact .inr ⟨n, p, readPayload_eq_ok_iff.mp hread⟩

end

/-! ### Pages -/

section

variable {n : Notification} {p : Page} (hp : p.Proper)

include hp

/-- A page that is not the last one of its change completes nothing; the change is pending with it. -/
theorem push_of_lt (h : p.number < p.count) (pending : Pending) :
    pending.push n p = (none, pending.set n.md5 (pending.extended n p)) := by
  have hsingle : p.isSingle = false := by
    have := hp.pos
    simp [Page.isSingle]
    omega
  have hlast : p.isLast = false := by
    simp [Page.isLast]
    omega
  simp [Pending.push, hsingle, hlast]

/-- The last page completes the change. -/
theorem push_of_not_lt (h : ¬ p.number < p.count) (pending : Pending) :
    ∃ e, (pending.push n p).1 = some e := by
  have hlast : p.isLast = true := by
    have := hp.le
    simp [Page.isLast]
    omega
  unfold Pending.push
  rw [hlast]
  split
  · exact ⟨_, rfl⟩
  · exact ⟨_, rfl⟩

end

/-! ### Handling a payload -/

namespace Processor

/-- Of all metrics, taking a page can change only the number of pending messages. -/
theorem metrics_reportPage (md5 : String) (p : Page) (pending : Pending) (t : Telemetry)
    {m : Metric} (hm : m ≠ .pendingMessages) :
    (reportPage md5 p pending t).metrics.get m = t.metrics.get m := by
  unfold reportPage
  split
  · rfl
  · simp [Telemetry.gauge, Telemetry.record, Metrics.get_set, hm]

section

variable (catalog : Catalog) (now : String) {payload : String} (s : Processor)

/-- A payload that is refused changes nothing. -/
theorem handle_of_refused {e : PayloadError} (h : Refused payload e) :
    s.handle catalog now payload = (.error e, s) := by
  simp [handle, readPayload_eq_error_iff.mpr h]

variable {n : Notification} {p : Page} (h : Announces payload n p)

include h

/-- A page with others to come joins what is pending, and only reports say so. -/
theorem handle_of_lt (hmore : p.number < p.count) :
    ∃ t, s.handle catalog now payload = (.ok none,
      ⟨s.pending.set n.md5 (s.pending.extended n p), { s.cache with telemetry := t }⟩) ∧
      ∀ m, m ≠ .pendingMessages → t.metrics.get m = s.cache.telemetry.metrics.get m := by
  have hpush := push_of_lt (n := n) (Page.proper_of_parse h.page) hmore s.pending
  refine ⟨reportPage n.md5 p (s.pending.set n.md5 (s.pending.extended n p)) s.cache.telemetry, ?_,
    fun m hm => metrics_reportPage _ _ _ _ hm⟩
  simp [handle, readPayload_eq_ok_iff.mpr h, hpush]

/-- The last page has an outcome. -/
theorem handle_of_not_lt (hlast : ¬ p.number < p.count) :
    ∃ outcome after, s.handle catalog now payload = (.ok (some outcome), after) := by
  obtain ⟨e, he⟩ := push_of_not_lt (n := n) (Page.proper_of_parse h.page) hlast s.pending
  rcases hpush : s.pending.push n p with ⟨event, pending⟩
  obtain rfl : event = some e := by rw [← he, hpush]
  simp only [handle, readPayload_eq_ok_iff.mpr h, hpush]
  exact ⟨_, _, rfl⟩

end

/-- A payload is refused, or joins what is pending, or has an outcome. -/
theorem handle_cases (catalog : Catalog) (now payload : String) (s : Processor) :
    (∃ e, Refused payload e ∧ s.handle catalog now payload = (.error e, s)) ∨
      (∃ n p after, Announces payload n p ∧ p.number < p.count ∧
        s.handle catalog now payload = (.ok none, after)) ∨
      ∃ outcome after, s.handle catalog now payload = (.ok (some outcome), after) := by
  rcases refused_or_announces payload with ⟨e, he⟩ | ⟨n, p, h⟩
  · exact .inl ⟨e, he, handle_of_refused catalog now s he⟩
  · by_cases hmore : p.number < p.count
    · obtain ⟨t, hhandle, -⟩ := handle_of_lt catalog now s h hmore
      exact .inr (.inl ⟨n, p, _, h, hmore, hhandle⟩)
    · exact .inr (.inr (handle_of_not_lt catalog now s h hmore))

section

variable {catalog : Catalog} {now payload : String} {s : Processor}

/-- Only payloads that the trigger did not publish are refused. -/
theorem handle_fst_eq_error_iff {e : PayloadError} :
    (s.handle catalog now payload).1 = .error e ↔ Refused payload e := by
  refine ⟨fun hanswer => ?_, fun he => by rw [handle_of_refused catalog now s he]⟩
  rcases handle_cases catalog now payload s with ⟨e', he, hhandle⟩ | ⟨n, p, after, -, -, hhandle⟩ |
    ⟨outcome, after, hhandle⟩
  all_goals
    rw [hhandle] at hanswer
    cases hanswer
  exact he

/-- A payload is taken without outcome exactly if it announces a page with others to come. -/
theorem handle_fst_eq_ok_none_iff :
    (s.handle catalog now payload).1 = .ok none ↔
      ∃ n p, Announces payload n p ∧ p.number < p.count := by
  constructor
  · intro hanswer
    rcases handle_cases catalog now payload s with ⟨e, -, hhandle⟩ |
      ⟨n, p, after, h, hmore, hhandle⟩ | ⟨outcome, after, hhandle⟩
    all_goals
      rw [hhandle] at hanswer
      cases hanswer
    exact ⟨n, p, h, hmore⟩
  · rintro ⟨n, p, h, hmore⟩
    obtain ⟨t, hhandle, -⟩ := handle_of_lt catalog now s h hmore
    rw [hhandle]

end

/-- Whatever is pending, cached and in the catalog, exactly the payloads that the trigger did not
publish are refused, and they change nothing.  Every other one is taken; it has no outcome exactly
if it announces a page with others to come, and then the cache is left alone. -/
theorem payloads_are_refused_or_taken (catalog : Catalog) (now payload : String) (s : Processor) :
    (∀ e, (s.handle catalog now payload).1 = .error e ↔ Refused payload e) ∧
      ((∃ e, Refused payload e) → (s.handle catalog now payload).2 = s) ∧
      ((¬ ∃ e, Refused payload e) → ∃ outcome, (s.handle catalog now payload).1 = .ok outcome) ∧
      ((s.handle catalog now payload).1 = .ok none ↔
        ∃ n p, Announces payload n p ∧ p.number < p.count) ∧
      ((s.handle catalog now payload).1 = .ok none →
        (s.handle catalog now payload).2.cache.store = s.cache.store ∧
        ∀ m, m ≠ .pendingMessages →
          (s.handle catalog now payload).2.cache.telemetry.metrics.get m =
            s.cache.telemetry.metrics.get m) := by
  refine ⟨fun e => handle_fst_eq_error_iff, ?_, fun hnot => ?_, handle_fst_eq_ok_none_iff,
    fun hnone => ?_⟩
  · rintro ⟨e, he⟩
    rw [handle_of_refused catalog now s he]
  · rcases hanswer : (s.handle catalog now payload).1 with e | outcome
    · exact absurd ⟨e, handle_fst_eq_error_iff.mp hanswer⟩ hnot
    · exact ⟨outcome, rfl⟩
  · obtain ⟨n, p, h, hmore⟩ := handle_fst_eq_ok_none_iff.mp hnone
    obtain ⟨t, hhandle, hmetrics⟩ := handle_of_lt catalog now s h hmore
    rw [hhandle]
    exact ⟨rfl, hmetrics⟩

/-! ### Half of an oak -/

/-- The notification of a new oak, with the first one of two pages. -/
def halfOak : Notification where
  id := "public.plants"
  schema := "public"
  table := "plants"
  action := .insert
  oldVersion := none
  newVersion := some "10"
  md5 := "oak"
  rawData := Page.text ⟨2, 1, "\x7b\"id\":"⟩

/-- A processor with nothing pending, over a disabled cache. -/
def idle : Processor :=
  { cache := { store := .disabled } }

/-- Over a disabled cache half of an oak is taken, and a text that is no notification is refused. -/
theorem halfOak_is_taken :
    (idle.handle (.fixed []) "" halfOak.text).1 = .ok none ∧
      (∃ e, Refused "oak" e) ∧ (idle.handle (.fixed []) "" "oak").2 = idle := by
  have hnone : Notification.parse "oak" = .error .expectedValue := by cbv
  have hrefused : ∃ e, Refused "oak" e := ⟨_, .notification hnone⟩
  have hparse : Notification.parse halfOak.text = .ok halfOak := by cbv
  have hproper : Page.Proper ⟨2, 1, "\x7b\"id\":"⟩ :=
    ⟨Nat.le_refl 1, Nat.le_succ 1, show 1 + 1 < Number.twoTo 32 by decide⟩
  have hannounces : Announces halfOak.text halfOak _ := ⟨hparse, Page.parse_text hproper⟩
  obtain ⟨-, -, -, htaken, -⟩ := payloads_are_refused_or_taken (.fixed []) "" halfOak.text idle
  obtain ⟨-, hsame, -⟩ := payloads_are_refused_or_taken (.fixed []) "" "oak" idle
  exact ⟨htaken.mpr ⟨halfOak, _, hannounces, Nat.lt_succ_self 1⟩, hrefused, hsame hrefused⟩

end Processor

end FreshTag.Change
