/-
FreshTag/Proofs/Change/Warnings.lean

No change is passed over in silence.  The steps of a change do not depend on the
cache: warnings, removals and additions, in order (`Event.steps`).  Applying
the change takes all of them, whatever the cache answers, and logs a warning
for each step that is one and for each command that fails (`Follows`,
`does_apply`).  A row that is not cached is among them, since an addition
that answers has stored the etag (`no_change_is_skipped_silently`).

`Follows` composes along the steps because the answers of a cache depend on its
store alone, so that what is logged on the way makes no difference to them.
-/
import FreshTag.Proofs.Cache.Requests
import FreshTag.Proofs.Change.Deliveries

namespace FreshTag.Change

open Cache (Store bind_of_eq)

/-! ### Steps of a change -/

/-- One step of a change. -/
inductive Event.Instruction where
  | warn (message : String) (fields : List (String × Json.Value))
  | remove (key : String)
  | add (key : String) (etag : WeakEtag)

/-- A warning of the part that applies changes. -/
def warning (message : String) (fields : List (String × Json.Value)) : Log.Record :=
  { source := .changes, level := .warn, message, fields }

/-- The warning about a key that the cache failed on. -/
def keyWarning (message key : String) (cause : Cache.Error) : Log.Record :=
  warning message [Log.field "key" key, Log.field "error" cause.message]

namespace Event.Instruction

/-- The cache after the step. -/
def perform (c : Cache) : Instruction → Cache
  | .warn .. => c
  | .remove key => ((Cache.remove key).run c).2
  | .add key etag => ((Cache.add key etag).run c).2

/-- What the step leaves in the log: a warning, if it is one or its command fails. -/
def warnings (c : Cache) : Instruction → List Log.Record
  | .warn message fields => [warning message fields]
  | .remove key =>
    match ((Cache.remove key).run c).1 with
    | .ok _ => []
    | .error cause => [keyWarning "Failed to remove weak etag from cache" key cause]
  | .add key etag =>
    match ((Cache.add key etag).run c).1 with
    | .ok _ => []
    | .error cause => [keyWarning "Failed to add weak etag to cache" key cause]

end Event.Instruction

open Event (Instruction)

/-- The cache after some steps. -/
def performed (c : Cache) (steps : List Instruction) : Cache :=
  steps.foldl Instruction.perform c

/-- The warnings of some steps. -/
def warningsOf (c : Cache) : List Instruction → List Log.Record
  | [] => []
  | step :: steps => step.warnings c ++ warningsOf (step.perform c) steps

namespace Event

/-- A warning if the row is no JSON object. -/
def rowSteps (e : Event) : List Instruction :=
  match Json.parseMap e.row with
  | .ok _ => []
  | .error cause =>
    [.warn "Notification row is not a JSON object; skipping cache enrichment"
      [Log.field "table" e.id, Log.field "error" cause.message]]

/-- The removal of the version that ended, or a warning that it is missing. -/
def removalSteps (e : Event) : List Instruction :=
  match e.oldVersion with
  | none =>
    [.warn "Notification without previous row version"
      [Log.field "table" e.id, Log.field "action" e.action.name]]
  | some version => [.remove (WeakEtag.ofVersion version).versionKey]

/-- The additions under both keys, or the warning why the row is not cached. -/
def additionSteps (catalog : Catalog) (now : String) (e : Event) (row : Json.Members) :
    List Instruction :=
  match etagOf catalog now e row with
  | .error reason => [.warn reason.message (Log.field "table" (reason.table e) :: reason.fields)]
  | .ok etag => [.add etag.identity etag, .add etag.versionKey etag]

/-- What is done for the version that ended. -/
def endSteps (e : Event) : List Instruction :=
  if e.action.endsVersion then e.removalSteps else []

/-- What is done for the version that began, with the row that was read. -/
def beginSteps (catalog : Catalog) (now : String) (e : Event) :
    Option Json.Members → List Instruction
  | some row => if e.action.beginsVersion then e.additionSteps catalog now row else []
  | none => []

/-- What is done for a change, one step after the other. -/
def steps (catalog : Catalog) (now : String) (e : Event) : List Instruction :=
  e.rowSteps ++ (e.endSteps ++ e.beginSteps catalog now (Json.parseMap e.row).toOption)

end Event

/-! ### Steps and stores -/

section

variable {c d after : Cache} {steps steps' : List Instruction}

theorem eq_of_map_told {x y : Except Cache.Error Bool}
    (h : x.map Cache.Reply.told = y.map Cache.Reply.told) : x = y := by
  rcases x with cause | b <;> rcases y with cause' | b' <;> cases h <;> rfl

theorem Event.Instruction.congr (h : c.store = d.store) (step : Instruction) :
    step.warnings c = step.warnings d ∧ (step.perform c).store = (step.perform d).store := by
  cases step with
  | warn message fields => exact ⟨rfl, h⟩
  | remove key =>
    obtain ⟨hreply, hstore⟩ := Cache.Request.congr h (.remove key)
    refine ⟨?_, hstore⟩
    rw [Instruction.warnings, eq_of_map_told hreply]
    rfl
  | add key etag =>
    obtain ⟨hreply, hstore⟩ := Cache.Request.congr h (.add key etag)
    refine ⟨?_, hstore⟩
    rw [Instruction.warnings, eq_of_map_told hreply]
    rfl

theorem congr_steps (h : c.store = d.store) (steps : List Instruction) :
    warningsOf c steps = warningsOf d steps ∧
      (performed c steps).store = (performed d steps).store := by
  induction steps generalizing c d with
  | nil => exact ⟨rfl, h⟩
  | cons step steps ih =>
    obtain ⟨hwarnings, hstore⟩ := step.congr h
    obtain ⟨hrest, hafter⟩ := ih hstore
    exact ⟨congrArg₂ (· ++ ·) hwarnings hrest, hafter⟩

theorem warningsOf_append (c : Cache) (steps steps' : List Instruction) :
    warningsOf c (steps ++ steps') =
      warningsOf c steps ++ warningsOf (performed c steps) steps' := by
  induction steps generalizing c with
  | nil => rfl
  | cons step steps ih =>
    show step.warnings c ++ warningsOf _ (steps ++ steps') = (step.warnings c ++ _) ++ _
    rw [ih, List.append_assoc]
    rfl

/-- A step that leaves a warning leaves it wherever it stands. -/
theorem mem_warningsOf {before rest : List Instruction} {step : Instruction} {r : Log.Record}
    (h : r ∈ step.warnings (performed c before)) :
    r ∈ warningsOf c (before ++ step :: rest) := by
  rw [warningsOf_append]
  exact List.mem_append_right _ (List.mem_append_left _ h)

/-- From one cache to the other all steps were taken, and their warnings were logged. -/
structure Follows (steps : List Instruction) (c after : Cache) : Prop where
  store : after.store = (performed c steps).store
  log : ∃ records, after.telemetry.log = c.telemetry.log ++ records ∧
    records.filter (·.level = .warn) = warningsOf c steps

namespace Follows

theorem refl (c : Cache) : Follows [] c c :=
  ⟨rfl, [], (List.append_nil _).symm, rfl⟩

theorem warningsOf_append (h : Follows steps c after) (steps' : List Instruction) :
    warningsOf c (steps ++ steps') = warningsOf c steps ++ warningsOf after steps' := by
  rw [(congr_steps h.store steps').1, Change.warningsOf_append]

theorem trans {last : Cache} (h : Follows steps c after) (h' : Follows steps' after last) :
    Follows (steps ++ steps') c last := by
  obtain ⟨records, hlog, hwarnings⟩ := h.log
  obtain ⟨records', hlog', hwarnings'⟩ := h'.log
  refine ⟨?_, records ++ records', ?_, ?_⟩
  · rw [h'.store, (congr_steps h.store steps').2, performed, performed, performed,
      List.foldl_append]
  · rw [hlog', hlog, List.append_assoc]
  · rw [List.filter_append, hwarnings, hwarnings', h.warningsOf_append]

theorem of_report (f : Telemetry → Telemetry) (hf : ∀ t, (f t).log = t.log) (c : Cache) :
    Follows [] c (Cache.report f c).2 :=
  ⟨rfl, [], by rw [List.append_nil]; exact hf _, rfl⟩

theorem of_log {level : Log.Level} (hlevel : level ≠ .warn) (source : Log.Source)
    (message : String) (fields : List (String × Json.Value)) (c : Cache) :
    Follows [] c (Cache.log source level message fields c).2 :=
  ⟨rfl, [{ source, level, message, fields }], rfl, by simp [hlevel, warningsOf]⟩

theorem of_warning (message : String) (fields : List (String × Json.Value)) (c : Cache) :
    Follows [.warn message fields] c (Cache.log .changes .warn message fields c).2 :=
  ⟨rfl, [warning message fields], rfl, rfl⟩

end Follows

/-- Started on the cache, the operation takes all steps, and its answer has the property. -/
def Does {α : Type} (op : StateM Cache α) (c : Cache) (steps : List Instruction)
    (Q : α → Prop) : Prop :=
  Follows steps c (op c).2 ∧ Q (op c).1

namespace Does

variable {α β : Type}

theorem pure {Q : α → Prop} {x : α} (hx : Q x) (c : Cache) : Does (Pure.pure x) c [] Q :=
  ⟨.refl c, hx⟩

/-- What follows an operation without steps. -/
theorem silently {op : StateM Cache Unit} {f : Unit → StateM Cache β} {Q : β → Prop}
    (h : Follows [] c (op c).2) (hf : ∀ after, Follows [] c after → Does (f ()) after steps Q) :
    Does (op >>= f) c steps Q := by
  obtain ⟨hrest, hy⟩ := hf _ h
  exact ⟨h.trans hrest, hy⟩

/-- What follows begins where the steps before it led. -/
theorem bind {op : StateM Cache α} {f : α → StateM Cache β} {P : α → Prop} {Q : β → Prop}
    (h : Does op c steps P)
    (hf : ∀ x after, P x → Follows steps c after → Does (f x) after steps' Q) :
    Does (op >>= f) c (steps ++ steps') Q := by
  obtain ⟨hfollows, hx⟩ := h
  obtain ⟨hrest, hy⟩ := hf _ _ hx hfollows
  exact ⟨hfollows.trans hrest, hy⟩

end Does

/-! ### Commands that may fail -/

/-- The operation logs nothing that is a warning. -/
def Unwarned {α : Type} (op : StateM Cache α) (c : Cache) : Prop :=
  ∃ records, (op c).2.telemetry.log = c.telemetry.log ++ records ∧
    records.filter (·.level = .warn) = []

namespace Unwarned

variable {α : Type}

theorem silent {op : StateM Cache α} (h : (op c).2.telemetry.log = c.telemetry.log) :
    Unwarned op c :=
  ⟨[], by rw [List.append_nil, h], rfl⟩

/-- An operation that begins by looking at the cache. -/
theorem look {f : Cache → Cache.Op α} (h : Unwarned (f c).run c) : Unwarned (get >>= f).run c :=
  h

theorem remove (key : String) (c : Cache) : Unwarned (Cache.remove key).run c := by
  refine .look ?_
  obtain ⟨store, reports⟩ := c
  rcases store with - | links | ⟨p, server⟩
  · exact .silent rfl
  · rcases h : links.remove? key with - | rest
    · simp only [h]
      exact .silent rfl
    · simp only [h]
      exact .silent rfl
  · refine .silent ?_
    show ((Cache.onServer p server (Cache.SharedStore.remove p key)).run _).2.telemetry.log = _
    rw [Cache.onServer_run]

/-- What is stored on a server is logged, but not as a warning. -/
theorem add (key : String) (etag : WeakEtag) (c : Cache) :
    Unwarned (Cache.add key etag).run c := by
  refine .look ?_
  obtain ⟨store, reports⟩ := c
  rcases store with - | links | ⟨p, server⟩
  · exact .silent rfl
  · exact .silent rfl
  · have hrun := Cache.onServer_run p server (Cache.SharedStore.add p key etag)
      ⟨.shared p server, reports⟩
    unfold Unwarned
    simp only [ExceptT.run_bind]
    rw [bind_of_eq hrun]
    rcases (Cache.SharedStore.add p key etag).run server with ⟨cause | x, after⟩
    · exact ⟨[], (List.append_nil _).symm, rfl⟩
    · exact ⟨[_], rfl, rfl⟩

end Unwarned

/-- A command whose failure is logged and counts as not done. -/
theorem does_command (step : Instruction) {op : StateM Cache (Except Cache.Error Bool)}
    {key message : String} (hafter : step.perform c = (op c).2)
    (hwarnings : step.warnings c =
      match (op c).1 with
      | .ok _ => []
      | .error cause => [keyWarning message key cause])
    (hquiet : Unwarned op c) :
    Does (do
      match ← op with
      | .ok done => return done
      | .error cause =>
        warnOfKey key cause message
        return false) c [step]
      fun done => done = false → (op c).1 ≠ .ok false → warningsOf c [step] ≠ [] := by
  obtain ⟨records, hlog, hnone⟩ := hquiet
  have hstore : (op c).2.store = (performed c [step]).store := by
    rw [← hafter]
    rfl
  have hall : warningsOf c [step] = step.warnings c := List.append_nil _
  unfold Does
  rcases hop : op c with ⟨cause | done, after⟩
  · rw [hop] at hstore hwarnings hlog
    rw [bind_of_eq hop]
    refine ⟨⟨hstore, records ++ [keyWarning message key cause], ?_, ?_⟩, fun _ _ => ?_⟩
    · show after.telemetry.log ++ [_] = _
      rw [hlog, List.append_assoc]
      rfl
    · rw [List.filter_append, hnone, hall, hwarnings]
      rfl
    · rw [hall, hwarnings]
      exact List.cons_ne_nil _ _
  · rw [hop] at hstore hwarnings hlog
    rw [bind_of_eq hop]
    refine ⟨⟨hstore, records, hlog, by rw [hnone, hall, hwarnings]⟩, ?_⟩
    rintro rfl hne
    exact absurd rfl hne

/-! ### The parts of a change -/

theorem does_rowOf (e : Event) (c : Cache) :
    Does (rowOf e) c e.rowSteps (· = (Json.parseMap e.row).toOption) := by
  unfold rowOf Event.rowSteps
  rcases Json.parseMap e.row with cause | row
  · exact ⟨.of_warning _ _ _, rfl⟩
  · exact .pure rfl c

theorem does_invalidate (e : Event) (c : Cache) :
    Does (invalidate e) c e.removalSteps fun _ => True := by
  unfold invalidate Event.removalSteps
  rcases e.oldVersion with - | version
  · exact ⟨.of_warning _ _ _, trivial⟩
  · exact ⟨(does_command (.remove (WeakEtag.ofVersion version).versionKey) rfl rfl
      (.remove _ c)).1, trivial⟩

/-- Where etags are stored, an addition that answers has stored its etag. -/
theorem add_stores (hc : c.store ≠ .disabled) (key : String) (etag : WeakEtag) :
    ((Cache.add key etag).run c).1 ≠ .ok false ∧
      ((Cache.add key etag).run c).2.store ≠ .disabled := by
  rcases hstore : c.store with - | links | ⟨p, server⟩
  · exact absurd hstore hc
  · obtain ⟨hanswer, hafter⟩ := Cache.Takes.add links key etag c hstore
    rw [hanswer, hafter]
    exact ⟨by simp, by simp⟩
  · obtain ⟨hafter, hanswer⟩ := Cache.add_on_shared hstore key etag
    refine ⟨fun hfalse => ?_, by rw [hafter]; simp⟩
    have := (hanswer false hfalse).2
    cases this

theorem does_store (hc : c.store ≠ .disabled) (etag : WeakEtag) (key : String) :
    Does (store etag key) c [.add key etag]
      fun stored => stored = false → warningsOf c [.add key etag] ≠ [] := by
  obtain ⟨hfollows, hanswer⟩ := does_command (.add key etag) rfl rfl (.add key etag c)
  exact ⟨hfollows, fun hfalse => hanswer hfalse (add_stores hc key etag).1⟩

theorem does_enrich (hc : c.store ≠ .disabled) (catalog : Catalog) (now : String) (e : Event)
    (row : Json.Members) :
    Does (enrich catalog now e row) c (e.additionSteps catalog now row)
      fun added => added = false → warningsOf c (e.additionSteps catalog now row) ≠ [] := by
  unfold enrich Event.additionSteps
  rcases etagOf catalog now e row with reason | etag
  · have hwarn : ∀ d, Follows [.warn reason.message
        (Log.field "table" (reason.table e) :: reason.fields)] d
        ((do
          warnOf (reason.table e) reason.message reason.fields
          return false : StateM Cache Bool) d).2 := fun d => .of_warning _ _ d
    refine ⟨?_, fun _ => List.cons_ne_nil _ _⟩
    -- a name that means no table may be logged before
    by_cases hlogs : reason = .unknownTable ∧ catalog.logsMisses = true
    · simp only [if_pos hlogs]
      exact (Follows.of_log (by decide) _ _ _ c).trans (hwarn _)
    · simp only [if_neg hlogs]
      exact hwarn c
  · refine (does_store hc etag etag.identity).bind fun first after hfirst hafter => ?_
    have hboth := hafter.warningsOf_append [.add etag.versionKey etag]
    have hstored : after.store ≠ .disabled := by
      rw [hafter.store]
      exact (add_stores hc etag.identity etag).2
    refine (does_store hstored etag etag.versionKey).bind fun second last hsecond _ =>
      .pure (fun hfalse => ?_) last
    show warningsOf c ([.add etag.identity etag] ++ [.add etag.versionKey etag]) ≠ []
    rw [hboth]
    rcases Bool.and_eq_false_iff.mp hfalse with h | h
    · exact List.append_ne_nil_of_left_ne_nil (hfirst h) _
    · exact List.append_ne_nil_of_right_ne_nil _ (hsecond h)

theorem perform_ne_disabled (hc : c.store ≠ .disabled) (step : Instruction) :
    (step.perform c).store ≠ .disabled := by
  cases step with
  | warn message fields => exact hc
  | add key etag => exact (add_stores hc key etag).2
  | remove key =>
    rcases hstore : c.store with - | links | ⟨p, server⟩
    · exact absurd hstore hc
    · have hafter := (Cache.Takes.remove links key).store_eq hstore
      show ((Cache.remove key).run c).2.store ≠ _
      rw [hafter]
      simp
    · show ((Cache.remove key).run c).2.store ≠ _
      rw [Cache.remove_on_shared hstore key]
      simp

theorem performed_ne_disabled (hc : c.store ≠ .disabled) (steps : List Instruction) :
    (performed c steps).store ≠ .disabled := by
  induction steps generalizing c with
  | nil => exact hc
  | cons step steps ih => exact ih (perform_ne_disabled hc step)

/-- What follows the removal adds the row, or warns why not. -/
theorem does_begin (hc : c.store ≠ .disabled) (catalog : Catalog) (now : String) (e : Event)
    (row : Option Json.Members) (removed : Bool) :
    Does (do
      let added ← match e.action.beginsVersion, row with
        | true, some row => enrich catalog now e row
        | _, _ => pure false
      Cache.report (·.count .applyTime)
      return ({ removed, added } : Outcome)) c (e.beginSteps catalog now row)
      fun outcome => e.action.beginsVersion = true → row ≠ none → outcome.added = false →
        warningsOf c (e.beginSteps catalog now row) ≠ [] := by
  have hend : ∀ (added : Bool) (d : Cache), Does (do
      Cache.report (·.count .applyTime)
      return ({ removed, added } : Outcome)) d [] (·.added = added) := fun added d =>
    ⟨.of_report (·.count .applyTime) (fun _ => rfl) d, rfl⟩
  rcases row with - | row
  · rcases e.action.beginsVersion with - | -
    · exact ⟨(hend false c).1, fun h => by cases h⟩
    · exact ⟨(hend false c).1, fun _ h => absurd rfl h⟩
  · unfold Event.beginSteps
    rcases hbegins : e.action.beginsVersion with - | -
    · exact ⟨(hend false c).1, fun h => by cases h⟩
    · have hrun := (does_enrich hc catalog now e row).bind
        (Q := fun outcome => outcome.added = false →
          warningsOf c (e.additionSteps catalog now row) ≠ [])
        fun added after hadded _ =>
          ⟨(hend added after).1, fun hfalse => hadded ((hend added after).2.symm.trans hfalse)⟩
      rw [List.append_nil] at hrun
      exact ⟨hrun.1, fun _ _ => hrun.2⟩

theorem does_end {β : Type} {f : Bool → StateM Cache β} {Q : β → Prop} (e : Event) (c : Cache)
    (hf : ∀ removed after, Follows e.endSteps c after → Does (f removed) after steps Q) :
    Does (if e.action.endsVersion then invalidate e >>= f else pure false >>= f) c
      (e.endSteps ++ steps) Q := by
  unfold Event.endSteps at *
  by_cases hends : e.action.endsVersion = true
  · rw [if_pos hends] at hf ⊢
    rw [if_pos hends]
    exact (does_invalidate e c).bind fun removed after _ => hf removed after
  · rw [if_neg hends] at hf ⊢
    rw [if_neg hends]
    exact hf false c (.refl c)

theorem warned_of_no_row {e : Event} (hrow : (Json.parseMap e.row).toOption = none) (c : Cache) :
    warningsOf c e.rowSteps ≠ [] := by
  unfold Event.rowSteps
  rcases h : Json.parseMap e.row with cause | row
  · exact List.cons_ne_nil _ _
  · rw [h] at hrow
    cases hrow

/-- Applying a change takes its steps.  If it begins a version that is not cached then, there is a
warning among them. -/
theorem does_apply (hc : c.store ≠ .disabled) (catalog : Catalog) (now : String) (e : Event) :
    Does (apply catalog now e) c (e.steps catalog now)
      fun outcome => e.action.beginsVersion = true → outcome.added = false →
        warningsOf c (e.steps catalog now) ≠ [] := by
  unfold apply
  refine .silently (.of_report (·.count (.events e.action)) (fun _ => rfl) c) fun c₁ h₁ => ?_
  refine .silently (.of_log (by decide) _ _ _ c₁) fun c₂ h₂ => ?_
  have hstore : c₂.store = c.store := (h₁.trans h₂).store
  rw [← (congr_steps hstore (e.steps catalog now)).1]
  refine (does_rowOf e c₂).bind fun row c₃ hrow h₃ => does_end e c₃ fun removed c₄ h₄ => ?_
  have hc₄ : c₄.store ≠ .disabled := by
    rw [(h₃.trans h₄).store]
    exact performed_ne_disabled (hstore ▸ hc) _
  obtain ⟨hfollows, hadded⟩ := does_begin hc₄ catalog now e row removed
  subst hrow
  refine ⟨hfollows, fun hbegins hfalse => ?_⟩
  -- either there is no row, which was said, or the last steps say why it was not added
  rw [Event.steps, h₃.warningsOf_append, h₄.warningsOf_append]
  by_cases hrow : (Json.parseMap e.row).toOption = none
  · exact List.append_ne_nil_of_left_ne_nil (warned_of_no_row hrow c₂) _
  · exact List.append_ne_nil_of_right_ne_nil _
      (List.append_ne_nil_of_right_ne_nil _ (hadded hbegins hrow hfalse))

end

/-! ### Silence -/

section

variable {catalog : Catalog} {now : String} {e : Event}

/-- A version that ends is removed under its key. -/
theorem remove_mem_steps {version : String} (h : e.Ends version) :
    .remove (WeakEtag.ofVersion version).versionKey ∈ e.steps catalog now := by
  obtain ⟨hact, hversion⟩ := h
  have hends : e.action.endsVersion = true := by
    rcases hact with h | h <;> simp [h, Action.endsVersion]
  refine List.mem_append_right _ (List.mem_append_left _ ?_)
  simp [Event.endSteps, hends, Event.removalSteps, hversion]

/-- An etag that is produced is added under both of its keys in the end. -/
theorem adds_suffix_steps {etag : WeakEtag} (h : e.Produces catalog now etag) :
    [.add etag.identity etag, .add etag.versionKey etag] <:+ e.steps catalog now := by
  have hproduced := Event.produced?_eq_some_iff.mpr h
  unfold Event.produced? at hproduced
  split at hproduced
  · next row hbegins hrow =>
    have hetag : etagOf catalog now e row = .ok etag := by
      rcases hetag : etagOf catalog now e row with reason | other
      · rw [hetag] at hproduced
        cases hproduced
      · rw [hetag] at hproduced
        rw [Option.some.inj hproduced]
    refine (List.suffix_append_of_suffix ?_).trans (List.suffix_append _ _)
    simp [Event.beginSteps, hrow, hbegins, Event.additionSteps, hetag, Except.toOption]
  · cases hproduced

/-- Applying a change that begins a version logs a warning if the row is not cached, and one for
each command that fails.  All commands are carried out all the same: the removal of the version
that ended, and the additions under both keys. -/
theorem no_change_is_skipped_silently (hact : e.action = .insert ∨ e.action = .update) {c : Cache}
    (hc : c.store ≠ .disabled) (catalog : Catalog) (now : String) :
    (∀ version, e.Ends version →
        .remove (WeakEtag.ofVersion version).versionKey ∈ e.steps catalog now) ∧
      (∀ etag, e.Produces catalog now etag →
        [.add etag.identity etag, .add etag.versionKey etag] <:+ e.steps catalog now) ∧
      (apply catalog now e c).2.store = (performed c (e.steps catalog now)).store ∧
      ∃ records, (apply catalog now e c).2.telemetry.log = c.telemetry.log ++ records ∧
        ((apply catalog now e c).1.added = false → ∃ r ∈ records, r.level = .warn) ∧
        (∀ before key rest cause, e.steps catalog now = before ++ .remove key :: rest →
          ((Cache.remove key).run (performed c before)).1 = .error cause →
          keyWarning "Failed to remove weak etag from cache" key cause ∈ records) ∧
        ∀ before key etag rest cause, e.steps catalog now = before ++ .add key etag :: rest →
          ((Cache.add key etag).run (performed c before)).1 = .error cause →
          keyWarning "Failed to add weak etag to cache" key cause ∈ records := by
  obtain ⟨⟨hstore, records, hlog, hwarnings⟩, hadded⟩ := does_apply hc catalog now e
  have hbegins : e.action.beginsVersion = true := by
    rcases hact with h | h <;> simp [h, Action.beginsVersion]
  have hlogged : ∀ r ∈ warningsOf c (e.steps catalog now), r ∈ records ∧ r.level = .warn := by
    intro r hr
    rw [← hwarnings, List.mem_filter] at hr
    exact ⟨hr.1, of_decide_eq_true hr.2⟩
  have hmem : ∀ {before step rest r}, e.steps catalog now = before ++ step :: rest →
      r ∈ step.warnings (performed c before) → r ∈ records := by
    intro before step rest r hsteps hr
    refine (hlogged r ?_).1
    rw [hsteps]
    exact mem_warningsOf hr
  refine ⟨fun _ => remove_mem_steps, fun _ => adds_suffix_steps, hstore, records, hlog,
    fun hfalse => ?_, fun before key rest cause hsteps hfails => ?_,
    fun before key etag rest cause hsteps hfails => ?_⟩
  · obtain ⟨r, hr⟩ := List.exists_mem_of_ne_nil _ (hadded hbegins hfalse)
    exact ⟨r, hlogged r hr⟩
  · refine hmem hsteps ?_
    rw [Instruction.warnings, hfails]
    exact List.mem_singleton.mpr rfl
  · refine hmem hsteps ?_
    rw [Instruction.warnings, hfails]
    exact List.mem_singleton.mpr rfl

/-- An oak grows while the server refuses the removal of the old version and the pool gives no
connection for the first addition: both fail, and both are logged. -/
theorem refused_oak_is_logged :
    let grows := plantChange .update (some "10") (some "11") "oak"
    let c : Cache := { store := .shared ⟨"fresh"⟩ { refuses := fun n _ => n == 1 || n == 2 } }
    ∃ records, (apply plants "" grows c).2.telemetry.log = records ∧
      keyWarning "Failed to remove weak etag from cache" "10" (.backend (.refused .evalSha)) ∈
        records ∧
      keyWarning "Failed to add weak etag to cache" (plantEtag "oak" "11").identity
        (.backend .noConnection) ∈ records := by
  intro grows c
  have hsteps : grows.steps plants "" =
      [.remove "10", .add (plantEtag "oak" "11").identity (plantEtag "oak" "11"),
        .add "11" (plantEtag "oak" "11")] := by cbv
  obtain ⟨-, -, -, records, hlog, -, hremove, hadd⟩ :=
    no_change_is_skipped_silently (e := grows) (Or.inr rfl) (c := c) (by simp [c]) plants ""
  exact ⟨records, hlog, hremove [] _ _ _ hsteps (by cbv), hadd [_] _ _ _ _ hsteps (by cbv)⟩

end

end FreshTag.Change
