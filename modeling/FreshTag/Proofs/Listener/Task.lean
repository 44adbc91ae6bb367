/-
FreshTag/Proofs/Listener/Task.lean

What the task of a listener does with a script.  An event either ends the task,
whatever was handled before, or it is handled and the task goes on
(`ends_or_goesOn`).  So the task handles the notifications in front of the first
event that ends it, in order and once each, and everything behind that event is
lost on it (`handles_until_it_ends`).
-/
import FreshTag.Listener.Task
import FreshTag.Proofs.Change.Deliveries

namespace FreshTag.Listener

open FreshTag.Change (Delivery Processor Refused)

/-- The notifications of a script, in their order. -/
def deliveries : List Wake → List Delivery
  | [] => []
  | .notification payload now :: script => ⟨now, payload⟩ :: deliveries script
  | _ :: script => deliveries script

/-- The event ends a task with the processor, and this is how. -/
inductive Ends (catalog : Catalog) (s : Processor) : Wake → Result → Prop
  | cancelled : Ends catalog s .cancelled (.ok ())
  | disconnected : Ends catalog s .disconnected (.error .connectionLost)
  | failed (cause : String) : Ends catalog s (.failed cause) (.error (.connection cause))
  | refused {payload now : String} {e : Change.PayloadError} :
    (s.handle catalog now payload).1 = .error e →
      Ends catalog s (.notification payload now) (.error (.payload e.cause))

/-- The event never ends the task, whatever was handled before. -/
def GoesOn (catalog : Catalog) (w : Wake) : Prop :=
  ∀ s result, ¬ Ends catalog s w result

variable {catalog : Catalog}

/-- The processors differ at most in their logs. -/
structure SameButLog (s t : Processor) : Prop where
  pending : s.pending = t.pending
  store : s.cache.store = t.cache.store
  metrics : s.cache.telemetry.metrics = t.cache.telemetry.metrics

/-! ### One event -/

theorem sameButLog_recorded (s : Processor) (level : Log.Level) (message : String)
    (fields : List (String × Json.Value)) : SameButLog (recorded s level message fields) s :=
  ⟨rfl, rfl, rfl⟩

/-- An event that ends the task is only recorded. -/
theorem react_of_ends {s : Processor} {w : Wake} {result : Result} (h : Ends catalog s w result) :
    ∃ ended, react catalog w s = (some result, ended) ∧ SameButLog ended s := by
  cases h with
  | cancelled => exact ⟨_, rfl, sameButLog_recorded _ _ _ _⟩
  | disconnected => exact ⟨_, rfl, sameButLog_recorded _ _ _ _⟩
  | failed cause => exact ⟨_, rfl, sameButLog_recorded _ _ _ _⟩
  | @refused payload now e hanswer =>
    have hhandle := Processor.handle_of_refused catalog now s
      (Processor.handle_fst_eq_error_iff.mp hanswer)
    simp only [react, hhandle]
    exact ⟨_, rfl, sameButLog_recorded _ _ _ _⟩

variable (catalog) in
/-- An event either ends the task, or it goes on with the notification handled, if it is one. -/
theorem ends_or_goesOn (w : Wake) (s : Processor) :
    (∃ result, Ends catalog s w result) ∨
      GoesOn catalog w ∧
        ∀ script, run catalog (w :: script) s =
          run catalog script (s.afterAll catalog (deliveries [w])) := by
  cases w with
  | cancelled => exact .inl ⟨_, .cancelled⟩
  | disconnected => exact .inl ⟨_, .disconnected⟩
  | failed cause => exact .inl ⟨_, .failed cause⟩
  | elapsed =>
    refine .inr ⟨fun t result h => ?_, fun script => rfl⟩
    cases h
  | notification payload now =>
    rcases hhandle : s.handle catalog now payload with ⟨e | outcome, after⟩
    · exact .inl ⟨_, .refused (congrArg Prod.fst hhandle)⟩
    · refine .inr ⟨fun t result h => ?_, fun script => ?_⟩
      · -- a payload is refused in every state or in none
        cases h with
        | refused hanswer =>
          have hrefused := Processor.handle_fst_eq_error_iff.mp hanswer
          rw [Processor.handle_of_refused catalog now s hrefused] at hhandle
          cases hhandle
      · have hafter : s.afterAll catalog (deliveries [.notification payload now]) = after :=
          congrArg Prod.snd hhandle
        rw [hafter, run]
        simp only [react, hhandle]

/-! ### A whole script -/

theorem deliveries_cons (w : Wake) (script : List Wake) :
    deliveries (w :: script) = deliveries [w] ++ deliveries script := by
  cases w
  all_goals rfl

theorem afterAll_deliveries_cons (w : Wake) (script : List Wake) (s : Processor) :
    s.afterAll catalog (deliveries (w :: script)) =
      (s.afterAll catalog (deliveries [w])).afterAll catalog (deliveries script) := by
  rw [deliveries_cons]
  exact List.foldl_append

/-- The task handles the notifications of a script in order and once each.  Unless the whole script
lets it go on, it does so up to the first event that ends it, and then it has the result of that
event, and only the log has changed; what stands behind that event makes no difference. -/
theorem handles_until_it_ends (catalog : Catalog) (script : List Wake) (s : Processor) :
    ((∀ w ∈ script, GoesOn catalog w) ∧
        run catalog script s = (none, s.afterAll catalog (deliveries script))) ∨
      ∃ before w rest result handled, script = before ++ w :: rest ∧
        (∀ v ∈ before, GoesOn catalog v) ∧
        handled = s.afterAll catalog (deliveries before) ∧ Ends catalog handled w result ∧
        ∃ ended, SameButLog ended handled ∧
          ∀ others, run catalog (before ++ w :: others) s = (some result, ended) := by
  induction script generalizing s with
  | nil => exact .inl ⟨by simp, rfl⟩
  | cons w script ih =>
    rcases ends_or_goesOn catalog w s with ⟨result, hends⟩ | ⟨hgoesOn, hrun⟩
    · obtain ⟨ended, hreact, hsame⟩ := react_of_ends hends
      refine .inr ⟨[], w, script, result, s, rfl, by simp, rfl, hends, ended, hsame, fun _ => ?_⟩
      rw [List.nil_append, run, hreact]
    · rcases ih (s.afterAll catalog (deliveries [w])) with ⟨hall, hrest⟩ |
        ⟨before, v, rest, result, handled, rfl, hbefore, rfl, hends, ended, hsame, hrest⟩
      · refine .inl ⟨List.forall_mem_cons.mpr ⟨hgoesOn, hall⟩, ?_⟩
        rw [hrun, hrest, afterAll_deliveries_cons w script]
      · refine .inr ⟨w :: before, v, rest, result, _, rfl,
          List.forall_mem_cons.mpr ⟨hgoesOn, hbefore⟩, rfl, ?_, ended, ?_, fun others => ?_⟩
        · rwa [afterAll_deliveries_cons w before]
        · rwa [afterAll_deliveries_cons w before]
        · rw [List.cons_append, hrun, hrest]

end FreshTag.Listener
