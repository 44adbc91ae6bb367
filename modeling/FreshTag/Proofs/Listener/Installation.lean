/-
FreshTag/Proofs/Listener/Installation.lean

What a listener puts to its database.  Starting goes through a plan: the schema,
the function, then for every table that the filter admits, in the order of the
catalog, the old trigger off and a new one on, and at last the subscription.  A
program `Follows` a plan if it puts its requests up to the first refusal, fails
with that one, and counts a table as installed exactly if its creation was
granted.  Programs that follow plans compose (`Follows.bind`), and so installing
puts the whole plan (`install_run`).

Removing puts all its requests, whatever is refused (`uninstall_run`).  From both
follow the two operations on a listener: `start_succeeds`, `start_fails` and
`close_run`.
-/
import FreshTag.Listener.Lifecycle
import FreshTag.Proofs.Database.Plans

namespace FreshTag.Listener

open FreshTag.Catalog (Table Filter)
open FreshTag.Database (Issued Request attempt_ask attempt_bind_error attempt_bind_ok issue issueAll
  triggerOf)

variable {σ : Type} {db : Database (StateM σ)}

/-! ### Plans -/

/-- The requests that give a table its trigger. -/
def triggerPlan (schema : String) (t : Table) : List Request :=
  [.run (.dropTrigger (triggerOf t)), .run (.createTrigger t schema)]

/-- The requests that put a listener to work; none of them comes behind a catalog that fails. -/
def plan (catalog : Catalog) (config : Config) (filter : Filter) : List Request :=
  [.run (.createSchema config.schema), .run (.createFunction config.schema config.chunk)] ++
    match catalog.tables with
    | .error _ => []
    | .ok tables =>
      (tables.filter filter.admits).flatMap (triggerPlan config.schema) ++
        [.listen Database.channel]

/-- The requests that remove the triggers of the tables and then the schema. -/
def removal (schema : String) (tables : List Table) : List Request :=
  tables.map (fun t => .run (.dropTrigger (triggerOf t))) ++ [.run (.dropSchema schema)]

/-- The table that a request gives a trigger. -/
def created? : Request → Option Table
  | .run (.createTrigger t _) => some t
  | _ => none

/-- The tables that requests give triggers, in order. -/
def created (requests : List Request) : List Table :=
  requests.filterMap created?

theorem created_append (p q : List Request) : created (p ++ q) = created p ++ created q :=
  List.filterMap_append

theorem created_of_none {r : Request} (h : created? r = none) : created [r] = [] := by
  rw [created, List.filterMap_cons_none h, List.filterMap_nil]

theorem created_triggerPlans (schema : String) (tables : List Table) :
    created (tables.flatMap (triggerPlan schema)) = tables := by
  induction tables with
  | nil => rfl
  | cons t tables ih =>
    rw [List.flatMap_cons, created_append, ih]
    rfl

/-- A plan gives triggers to the tables that the filter admits. -/
theorem created_plan {catalog : Catalog} {tables : List Table}
    (h : catalog.tables = .ok tables) (config : Config) (filter : Filter) :
    created (plan catalog config filter) = tables.filter filter.admits := by
  rw [plan, h, created_append, created_append, created_triggerPlans, created_of_none rfl]
  exact List.append_nil _

/-- Why starting failed if this request was refused. -/
def failureOf (r : Request) (cause : String) : Error :=
  match r with
  | .run (.createSchema schema) => .command ("create schema " ++ schema) cause
  | .run (.createFunction ..) => .command "create notify function" cause
  | .run (.createTrigger t _) => .command ("create trigger on " ++ t.id) cause
  | .run (.dropTrigger trigger) => .command ("drop trigger on " ++ trigger.table) cause
  | .run (.dropSchema schema) => .command ("drop schema " ++ schema) cause
  | _ => .connection cause

/-- What a program answers that follows a plan; `last` is its answer if nothing was refused. -/
def answerOf (last : Except Error Unit) (i : Issued) : Except Error Unit :=
  match i.refused with
  | none => last
  | some (r, cause) => .error (failureOf r cause)

/-! ### Programs that follow a plan -/

/-- The listener with this telemetry in its cache. -/
def reporting (l : Listener) (t : Telemetry) : Listener :=
  { l with cache := { l.cache with telemetry := t } }

/-- The listener with more tables installed. -/
def withInstalled (l : Listener) (tables : List Table) : Listener :=
  { l with installed := l.installed ++ tables }

theorem withInstalled_nil (l : Listener) : l.withInstalled [] = l := by
  simp [withInstalled]

/-- The program puts the requests of the plan up to the first refusal, which is its answer. -/
def Follows (db : Database (StateM σ)) (program : Attempt (StateM σ) Unit) (plan : List Request)
    (last : Except Error Unit) : Prop :=
  ∀ (l : Listener) (x : σ), ∃ t,
    (program.run.run l).run x =
      ((answerOf last (issue db plan x).1,
          (l.withInstalled (created (issue db plan x).1.granted)).reporting t),
        (issue db plan x).2)

/-- A program that begins by looking at the listener. -/
theorem attempt_get {α : Type} (f : Listener → Attempt (StateM σ) α) (l : Listener) :
    (get >>= f).run.run l = (f l).run.run l :=
  rfl

section

variable {c : Database.Command} {action : String} {l : Listener} {x y : σ}

theorem command_granted (h : db.put (.run c) x = (.ok (), y)) :
    ((command db action c).run.run l).run x = ((.ok (), l), y) := by
  refine (attempt_bind_ok (attempt_ask (db.run c) l x)).trans ?_
  rw [show db.run c x = (.ok (), y) from h]
  rfl

theorem command_refused {cause : String} (h : db.put (.run c) x = (.error cause, y)) :
    ((command db action c).run.run l).run x = ((.error (.command action cause), l), y) := by
  refine (attempt_bind_ok (attempt_ask (db.run c) l x)).trans ?_
  rw [show db.run c x = (.error cause, y) from h]
  rfl

end

namespace Follows

/-- A program that puts nothing. -/
theorem nil {program : Attempt (StateM σ) Unit} {last : Except Error Unit}
    (h : ∀ (l : Listener) (x : σ), ∃ t, (program.run.run l).run x = ((last, l.reporting t), x)) :
    Follows db program [] last := by
  intro l x
  obtain ⟨t, ht⟩ := h l x
  refine ⟨t, ht.trans ?_⟩
  show _ = ((last, (l.withInstalled []).reporting t), x)
  rw [withInstalled_nil]

theorem pure : Follows db (Pure.pure ()) [] (.ok ()) :=
  .nil fun l _ => ⟨l.cache.telemetry, rfl⟩

theorem log (level : Log.Level) (message : String) (fields : List (String × Json.Value)) :
    Follows db (liftM (Listener.log level message fields : Step (StateM σ) Unit)) [] (.ok ()) :=
  .nil fun _ _ => ⟨_, rfl⟩

/-- One program after the other follows one plan after the other. -/
theorem bind {p : Attempt (StateM σ) Unit} {f : Unit → Attempt (StateM σ) Unit}
    {first rest : List Request} {last : Except Error Unit} (hp : Follows db p first (.ok ()))
    (hf : ∀ u, Follows db (f u) rest last) : Follows db (p >>= f) (first ++ rest) last := by
  intro l x
  obtain ⟨t, ht⟩ := hp l x
  rw [Database.issue_append]
  rcases hissue : issue db first x with ⟨⟨granted, - | ⟨r, cause⟩⟩, y⟩
  · -- nothing was refused, and the second program goes on where the first ended
    rw [hissue] at ht
    obtain ⟨t', ht'⟩ := hf () ((l.withInstalled (created granted)).reporting t) y
    refine ⟨t', (attempt_bind_ok ht).trans (ht'.trans ?_)⟩
    simp [Issued.andThen, answerOf, created_append, withInstalled, reporting, List.append_assoc]
  · rw [hissue] at ht
    exact ⟨t, attempt_bind_error ht⟩

/-- A program that puts one request, and fails with it. -/
theorem single {program : Attempt (StateM σ) Unit} {r : Request} (hnone : created? r = none)
    (hgranted : ∀ l x y, db.put r x = (.ok (), y) →
      (program.run.run l).run x = ((.ok (), l), y))
    (hrefused : ∀ l x y cause, db.put r x = (.error cause, y) →
      (program.run.run l).run x = ((.error (failureOf r cause), l), y)) :
    Follows db program [r] (.ok ()) := by
  intro l x
  refine ⟨l.cache.telemetry, ?_⟩
  rcases hput : db.put r x with ⟨cause | ⟨⟩, y⟩
  · rw [hrefused l x y cause hput, Database.issue_refused hput]
    show ((Except.error (failureOf r cause), l), y) =
      ((Except.error (failureOf r cause), (l.withInstalled []).reporting l.cache.telemetry), y)
    rw [withInstalled_nil]
    rfl
  · rw [hgranted l x y hput, Database.issue_granted hput]
    show ((Except.ok (), l), y) =
      ((Except.ok (), (l.withInstalled (created [r])).reporting l.cache.telemetry), y)
    rw [created_of_none hnone, withInstalled_nil]
    rfl

/-- A command that gives no table a trigger. -/
theorem command {action : String} {c : Database.Command} (hnone : created? (.run c) = none)
    (hfailure : ∀ cause, failureOf (.run c) cause = .command action cause) :
    Follows db (Listener.command db action c) [.run c] (.ok ()) := by
  refine single hnone (fun _ _ _ hput => command_granted hput) fun _ _ _ cause hput => ?_
  rw [hfailure]
  exact command_refused hput

/-- The subscription. -/
theorem subscribe : Follows db
    (do
      match ← (db.listen Database.channel : StateM σ (Except String Unit)) with
      | .ok () => return ()
      | .error cause => MonadExcept.throw (.connection cause))
    [.listen Database.channel] (.ok ()) := by
  refine single rfl (fun l x y hput => ?_) fun l x y cause hput => ?_
  · refine (attempt_bind_ok (attempt_ask _ l x)).trans ?_
    rw [show db.listen Database.channel x = (.ok (), y) from hput]
    rfl
  · refine (attempt_bind_ok (attempt_ask _ l x)).trans ?_
    rw [show db.listen Database.channel x = (.error cause, y) from hput]
    rfl

/-- A table counts as installed if both of its requests were granted. -/
theorem installTrigger (schema : String) (t : Table) :
    Follows db (Listener.installTrigger db schema t) (triggerPlan schema t) (.ok ()) := by
  have hdrop : Follows db (Listener.command db ("drop trigger on " ++ t.id)
      (.dropTrigger (triggerOf t))) [.run (.dropTrigger (triggerOf t))] (.ok ()) :=
    command rfl fun _ => rfl
  refine hdrop.bind fun _ l x => ?_
  -- the table is put on the list behind its creation, where nothing can fail
  rcases hcreate : db.put (.run (.createTrigger t schema)) x with ⟨cause | ⟨⟩, y⟩
  · refine ⟨l.cache.telemetry, (attempt_bind_error (command_refused hcreate)).trans ?_⟩
    rw [Database.issue_refused hcreate]
    show _ = ((_, (l.withInstalled []).reporting l.cache.telemetry), y)
    rw [withInstalled_nil]
    rfl
  · refine ⟨l.cache.telemetry.record .listener .debug "trigger installed"
      [Log.field "table" t.id], (attempt_bind_ok (command_granted hcreate)).trans ?_⟩
    rw [Database.issue_granted hcreate]
    rfl

/-- The tables that the filter admits get their triggers, in order. -/
theorem installTriggers (schema : String) (filter : Filter) (tables : List Table) :
    Follows db (Listener.installTriggers db schema filter tables)
      ((tables.filter filter.admits).flatMap (triggerPlan schema)) (.ok ()) := by
  induction tables with
  | nil => exact .pure
  | cons t tables ih =>
    rcases hadmits : filter.admits t with - | -
    · rw [List.filter_cons_of_neg (by simp [hadmits])]
      unfold Listener.installTriggers
      rw [if_neg (by simp [hadmits])]
      exact (log _ _ _).bind fun _ => ih
    · rw [List.filter_cons_of_pos hadmits, List.flatMap_cons]
      unfold Listener.installTriggers
      rw [if_pos hadmits]
      exact (installTrigger schema t).bind fun _ => ih

end Follows

/-! ### Starting -/

/-- The answer of an installation of which nothing was refused. -/
def catalogAnswer (catalog : Catalog) : Except Error Unit :=
  match catalog.tables with
  | .error cause => .error (.catalog cause)
  | .ok _ => .ok ()

/-- Installing puts the plan up to the first refusal. -/
theorem install_run (db : Database (StateM σ)) (filter : Filter) (l : Listener) (x : σ) :
    ∃ t, ((install db filter).run.run l).run x =
      ((answerOf (catalogAnswer l.catalog) (issue db (plan l.catalog l.config filter) x).1,
          (l.withInstalled
            (created (issue db (plan l.catalog l.config filter) x).1.granted)).reporting t),
        (issue db (plan l.catalog l.config filter) x).2) := by
  have hschema : Follows db (command db ("create schema " ++ l.config.schema)
      (.createSchema l.config.schema)) [.run (.createSchema l.config.schema)] (.ok ()) :=
    .command rfl fun _ => rfl
  have hfunction : Follows db (command db "create notify function"
      (.createFunction l.config.schema l.config.chunk))
      [.run (.createFunction l.config.schema l.config.chunk)] (.ok ()) :=
    .command rfl fun _ => rfl
  unfold install plan catalogAnswer
  rw [attempt_get]
  rcases l.catalog.tables with cause | tables
  · refine hschema.bind (fun _ => hfunction.bind fun _ => ?_) l x
    exact .nil fun l _ => ⟨l.cache.telemetry, rfl⟩
  · refine hschema.bind (fun _ => hfunction.bind fun _ => ?_) l x
    exact (Follows.installTriggers l.config.schema filter tables).bind fun _ => .subscribe

/-! ### Removing -/

section

variable {α β : Type} {p : Step (StateM σ) α} {f : α → Step (StateM σ) β} {l l' : Listener}
  {x y : σ} {a : α}

theorem step_bind (h : (p.run l).run x = ((a, l'), y)) :
    ((p >>= f).run l).run x = ((f a).run l').run y := by
  show ((f ((p.run l).run x).1.1).run ((p.run l).run x).1.2).run ((p.run l).run x).2 = _
  rw [h]

theorem step_ask (op : StateM σ α) (l : Listener) (x : σ) :
    ((liftM op : Step (StateM σ) α).run l).run x = (((op x).1, l), (op x).2) :=
  rfl

end

/-- A step that begins by looking at the listener. -/
theorem step_look {α : Type} (f : Listener → Step (StateM σ) α) (l : Listener) :
    (get >>= f).run l = (f l).run l :=
  rfl

theorem step_get (l : Listener) (x : σ) :
    ((get : Step (StateM σ) Listener).run l).run x = ((l, l), x) :=
  rfl

theorem step_set (l l' : Listener) (x : σ) :
    ((set l' : Step (StateM σ) PUnit).run l).run x = ((⟨⟩, l'), x) :=
  rfl

theorem step_enter (state : State) (l : Listener) (x : σ) :
    ((enter state : Step (StateM σ) Unit).run l).run x = (((), { l with state }), x) :=
  rfl

theorem step_modify (f : Listener → Listener) (l : Listener) (x : σ) :
    ((modify f : Step (StateM σ) PUnit).run l).run x = ((⟨⟩, f l), x) :=
  rfl

theorem step_log (level : Log.Level) (message : String) (fields : List (String × Json.Value))
    (l : Listener) (x : σ) :
    ((log level message fields : Step (StateM σ) Unit).run l).run x =
      (((), l.reporting (l.cache.telemetry.record .listener level message fields)), x) :=
  rfl

/-- Every trigger is dropped, whatever is refused. -/
theorem dropTriggers_run (db : Database (StateM σ)) (tables : List Table) (l : Listener) (x : σ) :
    ∃ t, ((dropTriggers db tables).run l).run x =
      (((), l.reporting t),
        issueAll db (tables.map fun t => .run (.dropTrigger (triggerOf t))) x) := by
  induction tables generalizing l x with
  | nil => exact ⟨l.cache.telemetry, rfl⟩
  | cons table tables ih =>
    unfold dropTriggers
    have hask := step_ask (db.run (.dropTrigger (triggerOf table))) l x
    have hcons : issueAll db ((table :: tables).map fun t => .run (.dropTrigger (triggerOf t))) x =
        issueAll db (tables.map fun t => .run (.dropTrigger (triggerOf t)))
          (db.run (.dropTrigger (triggerOf table)) x).2 := rfl
    rw [hcons]
    rcases hrun : db.run (.dropTrigger (triggerOf table)) x with ⟨cause | ⟨⟩, y⟩ <;>
      rw [hrun] at hask
    · obtain ⟨t, ht⟩ := ih (l.reporting (l.cache.telemetry.record .listener .warn
        "Failed to drop notify trigger" [Log.field "table" table.id, Log.field "error" cause])) y
      exact ⟨t, (step_bind hask).trans ((step_bind (step_log ..)).trans ht)⟩
    · obtain ⟨t, ht⟩ := ih l y
      exact ⟨t, (step_bind hask).trans ht⟩

/-- The triggers and the schema are dropped, whatever is refused, and no table counts as
installed. -/
theorem uninstall_run (db : Database (StateM σ)) (l : Listener) (x : σ) :
    ∃ t, ((uninstall db).run l).run x =
      (((), ({ l with installed := [] } : Listener).reporting t),
        issueAll db (removal l.config.schema l.installed) x) := by
  obtain ⟨t, ht⟩ := dropTriggers_run db l.installed { l with installed := [] } x
  generalize hy : issueAll db (l.installed.map fun t => .run (.dropTrigger (triggerOf t))) x = y
    at ht
  have hremoval : issueAll db (removal l.config.schema l.installed) x =
      (db.run (.dropSchema l.config.schema) y).2 := by
    rw [← hy, removal, Database.issueAll, List.foldl_append]
    rfl
  have hask := step_ask (db.run (.dropSchema l.config.schema))
    (({ l with installed := [] } : Listener).reporting t) y
  unfold uninstall
  rw [hremoval, step_look]
  rcases hrun : db.run (.dropSchema l.config.schema) y with ⟨cause | ⟨⟩, z⟩ <;>
    rw [hrun] at hask
  · exact ⟨_, (step_bind (step_set ..)).trans
      ((step_bind ht).trans ((step_bind hask).trans (step_log ..)))⟩
  · exact ⟨t, (step_bind (step_set ..)).trans ((step_bind ht).trans (step_bind hask))⟩

/-! ### The operations -/

/-- A listener that is not at its beginning is not started. -/
theorem start_rejected (db : Database (StateM σ)) (filter : Filter) {l : Listener}
    (h : l.state ≠ .uninitialized) (x : σ) :
    ((start db filter).run l).run x = ((.error (.invalidState "initialize" l.state), l), x) := by
  unfold start
  rw [step_look, if_pos h]
  rfl

section

variable {filter : Filter} {l : Listener} {x y : σ} {i : Issued}

/-- Starting puts the plan, and the task begins. -/
theorem start_succeeds (h : l.state = .uninitialized)
    (hissue : issue db (plan l.catalog l.config filter) x = (i, y))
    (hanswer : answerOf (catalogAnswer l.catalog) i = .ok ()) :
    ∃ t, ((start db filter).run l).run x =
      ((.ok (), ({ l with
          installed := l.installed ++ created i.granted
          task := some (.waiting {} []), state := .listening } : Listener).reporting t), y) := by
  obtain ⟨t, hinstall⟩ := install_run db filter { l with state := .initializing } x
  rw [show issue db (plan _ _ filter) x = (i, y) from hissue,
    show answerOf _ i = .ok () from hanswer] at hinstall
  unfold start
  rw [step_look, if_neg (not_not_intro h)]
  exact ⟨_, (step_bind (step_enter ..)).trans ((step_bind hinstall).trans
    ((step_bind (step_modify ..)).trans ((step_bind (step_get ..)).trans
      (step_bind (step_log ..)))))⟩

/-- Where starting fails, it removes what was installed. -/
theorem start_fails (h : l.state = .uninitialized)
    (hissue : issue db (plan l.catalog l.config filter) x = (i, y)) {e : Error}
    (hanswer : answerOf (catalogAnswer l.catalog) i = .error e) :
    ∃ t, ((start db filter).run l).run x =
      ((.error e, ({ l with installed := [], state := .closed } : Listener).reporting t),
        issueAll db (removal l.config.schema (l.installed ++ created i.granted)) y) := by
  obtain ⟨t, hinstall⟩ := install_run db filter { l with state := .initializing } x
  rw [show issue db (plan _ _ filter) x = (i, y) from hissue,
    show answerOf _ i = .error e from hanswer] at hinstall
  obtain ⟨t', huninstall⟩ := uninstall_run db
    ((({ l with state := .initializing } : Listener).withInstalled
      (created i.granted)).reporting (t.record .listener .error
        "Change listener initialization failed; removing installed objects"
        [Log.field "error" e.message])) y
  unfold start
  rw [step_look, if_neg (not_not_intro h)]
  exact ⟨t', (step_bind (step_enter ..)).trans ((step_bind hinstall).trans
    ((step_bind (step_log ..)).trans ((step_bind huninstall).trans
      (step_bind (step_enter ..)))))⟩

end

/-- Closing a listener that does not listen does nothing. -/
theorem close_ignored (db : Database (StateM σ)) {l : Listener} (h : l.state ≠ .listening)
    (x : σ) : ∃ t, ((close db).run l).run x = (((), l.reporting t), x) := by
  unfold close
  rw [step_look, if_pos h]
  exact ⟨_, step_log ..⟩

/-- A task that is told to end has ended when its result is asked for. -/
theorem takeResult_cancel (l : Listener) : ∃ result t,
    l.cancel.takeResult = (some result, ({ l with task := none } : Listener).reporting t) := by
  obtain ⟨catalog, config, cache, state, installed, task⟩ := l
  rcases task with - | ⟨pending, inbox⟩ | result
  · exact ⟨_, cache.telemetry, rfl⟩
  · exact ⟨.ok (), _, rfl⟩
  · exact ⟨result, cache.telemetry, rfl⟩

/-- Closing ends the task and removes what was installed. -/
theorem close_run (db : Database (StateM σ)) {l : Listener} (h : l.state = .listening) (x : σ) :
    ∃ t, ((close db).run l).run x =
      (((), ({ l with installed := [], task := none, state := .closed } : Listener).reporting t),
        issueAll db (removal l.config.schema l.installed) x) := by
  obtain ⟨result, t, htake⟩ := ({ l with state := .closing } : Listener).takeResult_cancel
  unfold close
  rw [step_look, if_neg (not_not_intro h), step_bind (step_enter ..), step_bind (step_get ..),
    htake]
  rcases result with e | ⟨⟩
  · obtain ⟨t', huninstall⟩ := uninstall_run db
      (({ l with state := .closing, task := none } : Listener).reporting
        (t.record .listener .warn "Listener task had failed before close"
          [Log.field "error" e.message])) x
    exact ⟨_, (step_bind (step_set ..)).trans ((step_bind (step_log ..)).trans
      ((step_bind huninstall).trans ((step_bind (step_enter ..)).trans (step_log ..))))⟩
  · obtain ⟨t', huninstall⟩ := uninstall_run db
      (({ l with state := .closing, task := none } : Listener).reporting t) x
    exact ⟨_, (step_bind (step_set ..)).trans ((step_bind huninstall).trans
      ((step_bind (step_enter ..)).trans (step_log ..)))⟩

end FreshTag.Listener
