/-
FreshTag/Proofs/Listener/Sharing.lean

Any number of listeners on one server.  What one of them does is done on the
schemas and triggers of all: the trigger of a table has the same name whoever
creates it, starting takes off the trigger that is there, and closing drops the
schema with every trigger that calls its function.

`Starts` says that a listener gives a table its trigger now, `Ends` that one takes
it away.  One step decides over a trigger by these two (`bound_perform_iff`), and so
in a whole run the last step that touched it decides (`bound_after_iff`).  From that
follows when the tables of a listener carry its triggers (`carries_trigger_iff`):
not always, as a listener that closes takes away what another one installed
(`plants_lose_their_trigger`).
-/
import FreshTag.Proofs.Database.Server
import FreshTag.Proofs.Listener.Runs
import Mathlib.Logic.Function.Basic

namespace FreshTag.Listener

open FreshTag.Catalog (Table Filter)
open FreshTag.Database (FunctionName Issued Request Server SpellsTable Trigger TriggerName
  functionName issue issueAll served triggerNameOf)

variable (le : Trigger → Trigger → Bool)

/-! ### Plans on a server -/

/-- The identifier of the table means it. -/
def Named (t : Table) : Prop :=
  SpellsTable t.id t.schema t.name

theorem named_ofName (schema name : String) : Named (.ofName schema name) :=
  Database.spellsTable_identifier schema name

/-- The function that a listener with this schema creates. -/
def functionIn (schema : String) : FunctionName :=
  ⟨schema, functionName⟩

/-- Nothing of the plan is refused. -/
def Granted (plan : List Request) (d d' : Server) : Prop :=
  issue (served le) plan d = ({ granted := plan }, d')

namespace Granted

variable {le} {d d₁ d' : Server} {r : Request} {p q : List Request}

theorem cons (hput : (served le).put r d = (.ok (), d₁)) (h : Granted le p d₁ d') :
    Granted le (r :: p) d d' := by
  rw [Granted, Database.issue_granted hput, h]
  rfl

theorem append (h : Granted le p d d₁) (h' : Granted le q d₁ d') : Granted le (p ++ q) d d' := by
  rw [Granted, Database.issue_append, h]
  show ((_ : Issued).andThen (issue (served le) q d₁).1, (issue (served le) q d₁).2) = _
  rw [h']
  rfl

variable (le) in
/-- A table gets its trigger in place of the one that it has. -/
theorem triggerPlan {schema : String} {t : Table} (ht : Named t)
    (hfunction : functionIn schema ∈ d.functions) :
    ∃ d', Granted le (Listener.triggerPlan schema t) d d' ∧ d'.functions = d.functions ∧
      ∀ b, b ∈ d'.triggers ↔
        b = (triggerNameOf t, functionIn schema) ∨ b ∈ d.triggers ∧ b.1 ≠ triggerNameOf t := by
  have hnew : triggerNameOf t ∉ (d.without [triggerNameOf t]).triggers.map Prod.fst := by
    simp [Server.without]
  refine ⟨_, cons (Database.run_dropTriggerOf le d ht) (cons
    (Database.run_createTrigger le (d.without [triggerNameOf t]) ht hfunction hnew) rfl), rfl,
    fun b => ?_⟩
  show b ∈ (triggerNameOf t, functionIn schema) :: (d.without [triggerNameOf t]).triggers ↔ _
  rw [List.mem_cons]
  simp [Server.without]

variable (le) in
/-- Of several tables each gets its trigger, and the others keep theirs. -/
theorem triggerPlans {schema : String} {tables : List Table} (hnamed : ∀ t ∈ tables, Named t)
    (hfunction : functionIn schema ∈ d.functions) :
    ∃ d', Granted le (tables.flatMap (Listener.triggerPlan schema)) d d' ∧
      ∀ b, b ∈ d'.triggers ↔
        b.1 ∈ tables.map triggerNameOf ∧ b.2 = functionIn schema ∨
          b ∈ d.triggers ∧ b.1 ∉ tables.map triggerNameOf := by
  -- on the tables; one that comes twice gets its trigger twice, and the last one stays
  induction tables generalizing d with
  | nil => exact ⟨d, rfl, fun b => by simp⟩
  | cons t tables ih =>
    obtain ⟨d₁, hfirst, hfunctions, htriggers⟩ :=
      triggerPlan le (hnamed t List.mem_cons_self) hfunction
    obtain ⟨d', hrest, hafter⟩ := ih (fun u hu => hnamed u (List.mem_cons_of_mem t hu))
      (d := d₁) (hfunctions ▸ hfunction)
    refine ⟨d', hfirst.append hrest, fun b => ?_⟩
    rw [hafter, htriggers, List.map_cons, List.mem_cons, Prod.ext_iff]
    grind

variable (le) in
/-- Starting is granted as a whole. -/
theorem plan {catalog : Catalog} {tables : List Table} (htables : catalog.tables = .ok tables)
    (hnamed : ∀ t ∈ tables, Named t) (config : Config) (filter : Filter) (d : Server) :
    ∃ d', Granted le (Listener.plan catalog config filter) d d' ∧
      ∀ b, b ∈ d'.triggers ↔
        b.1 ∈ (tables.filter filter.admits).map triggerNameOf ∧ b.2 = functionIn config.schema ∨
          b ∈ d.triggers ∧ b.1 ∉ (tables.filter filter.admits).map triggerNameOf := by
  have hschema : config.schema ∈ (d.withSchema config.schema).schemas := by
    show config.schema ∈ if config.schema ∈ d.schemas then d.schemas else _
    split
    · assumption
    · exact List.mem_cons_self
  have hfunction : functionIn config.schema ∈
      ((d.withSchema config.schema).withFunction (functionIn config.schema) hschema).functions := by
    show functionIn config.schema ∈ if functionIn config.schema ∈ d.functions then _ else _
    split
    · assumption
    · exact List.mem_cons_self
  obtain ⟨d', htriggers, hafter⟩ := triggerPlans le
    (fun t ht => hnamed t (List.mem_filter.mp ht).1) hfunction
  have hlisten : Granted le [.listen Database.channel] d' d' := rfl
  refine ⟨d', ?_, hafter⟩
  unfold Listener.plan
  rw [htables]
  exact cons (Database.run_createSchema le d config.schema)
    (cons (Database.run_createFunction le _ config.chunk hschema) (htriggers.append hlisten))

end Granted

theorem removal_cons (schema : String) (t : Table) (tables : List Table) :
    removal schema (t :: tables) =
      .run (.dropTrigger (Database.triggerOf t)) :: removal schema tables :=
  rfl

/-- Closing is granted as a whole. -/
theorem Granted.removal (schema : String) {tables : List Table} (hnamed : ∀ t ∈ tables, Named t)
    (d : Server) : Granted le (Listener.removal schema tables) d
      ((d.without (tables.map triggerNameOf)).withoutSchema schema) := by
  induction tables generalizing d with
  | nil =>
    rw [List.map_nil, Server.without_nil]
    exact .cons (Database.run_dropSchema le d schema) rfl
  | cons t tables ih =>
    have hrest := ih (fun u hu => hnamed u (List.mem_cons_of_mem t hu)) (d.without [triggerNameOf t])
    rw [Server.without_without] at hrest
    rw [removal_cons]
    exact .cons (Database.run_dropTriggerOf le d (hnamed t List.mem_cons_self)) hrest

/-- What remains when triggers and a schema are removed. -/
theorem issueAll_removal (schema : String) {tables : List Table} (hnamed : ∀ t ∈ tables, Named t)
    (d : Server) : issueAll (served le) (Listener.removal schema tables) d =
      (d.without (tables.map triggerNameOf)).withoutSchema schema := by
  have hgranted := Granted.removal le schema hnamed d
  rw [Granted] at hgranted
  rw [Database.issueAll_of_granted (by rw [hgranted]), hgranted]

/-! ### One listener on a server -/

/-- What is known of a listener at any time: its catalog answers, its tables have identifiers
that mean them, and before it starts nothing is installed. -/
structure Ready (l : Listener) : Prop where
  answers : ∃ tables, l.catalog.tables = .ok tables ∧ ∀ t ∈ tables, Named t
  named : ∀ t ∈ l.installed, Named t
  unstarted : l.state = .uninitialized → l.installed = []

theorem Ready.alike {l l' : Listener} (h : Ready l) (h' : Alike l l') : Ready l' where
  answers := h'.catalog ▸ h.answers
  named := h'.installed ▸ h.named
  unstarted hstate := h'.installed.trans (h.unstarted (h'.state.symm.trans hstate))

/-- The listener gives the table of this trigger its trigger now. -/
def StartsOn (l : Listener) (o : Occurrence) (trigger : TriggerName) : Prop :=
  ∃ filter tables, o = .start filter ∧ l.state = .uninitialized ∧ l.catalog.tables = .ok tables ∧
    trigger ∈ (tables.filter filter.admits).map triggerNameOf

/-- The listener is closed now. -/
def ClosesNow (l : Listener) (o : Occurrence) : Prop :=
  o = .close ∧ l.state = .listening

section

variable {le} {l l' : Listener} {o : Occurrence} {d d' : Server} {answer : Option Result}

/-- What happens to a listener, and what that does to the triggers. -/
structure Performed (l : Listener) (o : Occurrence) (d : Server) (l' : Listener) (d' : Server) :
    Prop where
  ready : Ready l'
  config : l'.config = l.config
  /-- what was there stays unless it is replaced or removed -/
  bound : ∀ b, b ∈ d'.triggers ↔
    StartsOn l o b.1 ∧ b.2 = functionIn l.config.schema ∨
      b ∈ d.triggers ∧ ¬ StartsOn l o b.1 ∧
        ¬ (ClosesNow l o ∧
          (b.1 ∈ l.installed.map triggerNameOf ∨ b.2.schema = l.config.schema))
  /-- a table is installed by starting only, and until the listener is closed -/
  installed : l'.state = .listening → ∀ t ∈ l'.installed,
    StartsOn l o (triggerNameOf t) ∨ l.state = .listening ∧ t ∈ l.installed ∧ ¬ ClosesNow l o

theorem startsOn_iff {filter : Filter} {tables : List Table} {trigger : TriggerName}
    (hstate : l.state = .uninitialized) (htables : l.catalog.tables = .ok tables) :
    StartsOn l (.start filter) trigger ↔
      trigger ∈ (tables.filter filter.admits).map triggerNameOf := by
  constructor
  · rintro ⟨_, _, hstart, -, htables', hmem⟩
    obtain rfl := Occurrence.start.inj hstart
    obtain rfl := Except.ok.inj (htables.symm.trans htables')
    exact hmem
  · exact fun hmem => ⟨filter, tables, rfl, hstate, htables, hmem⟩

namespace Performed

/-- Nothing happens to the triggers. -/
theorem quiet (h : Ready l) (hstart : ∀ trigger, ¬ StartsOn l o trigger) (hclose : ¬ ClosesNow l o)
    (halike : Alike l l') (d : Server) : Performed l o d l' d where
  ready := h.alike halike
  config := halike.config
  bound b := by simp [hstart, hclose]
  installed hstate t ht :=
    .inr ⟨halike.state.symm.trans hstate, halike.installed ▸ ht, hclose⟩

variable (le) in
theorem started (h : Ready l) (filter : Filter) (hstate : l.state = .uninitialized) (d : Server) :
    ∃ l' d', (((Occurrence.start filter).perform (served le)).run l).run d =
        ((some (.ok ()), l'), d') ∧
      Performed l (.start filter) d l' d' ∧ l'.state = .listening ∧
      ∀ tables, l.catalog.tables = .ok tables → l'.installed = tables.filter filter.admits := by
  obtain ⟨tables, htables, hnamed⟩ := h.answers
  obtain ⟨d', hgranted, htriggers⟩ :=
    Granted.plan le htables hnamed l.config filter d
  have hanswer : answerOf (catalogAnswer l.catalog)
      { granted := plan l.catalog l.config filter } = .ok () := by
    rw [answerOf, catalogAnswer, htables]
  obtain ⟨t, hrun⟩ := start_succeeds hstate hgranted hanswer
  have hinstalled : l.installed ++ created (plan l.catalog l.config filter) =
      tables.filter filter.admits := by
    rw [h.unstarted hstate, created_plan htables, List.nil_append]
  rw [hinstalled] at hrun
  refine ⟨_, d', step_bind hrun, ⟨⟨⟨tables, htables, hnamed⟩,
    fun u hu => hnamed u (List.mem_filter.mp hu).1, fun hlistening => ?_⟩, rfl, fun b => ?_,
    fun _ u hu => ?_⟩, rfl, fun tables' htables' => ?_⟩
  · cases hlistening
  · rw [htriggers, startsOn_iff hstate htables]
    have hclose : ¬ ClosesNow l (.start filter) := by
      rintro ⟨heq, -⟩
      cases heq
    simp [hclose]
  · exact .inl ((startsOn_iff hstate htables).mpr (List.mem_map_of_mem hu))
  · obtain rfl := Except.ok.inj (htables.symm.trans htables')
    rfl

variable (le) in
theorem closed (h : Ready l) (hstate : l.state = .listening) (d : Server) :
    ∃ l' d', ((Occurrence.close.perform (served le)).run l).run d = ((none, l'), d') ∧
      Performed l .close d l' d' := by
  obtain ⟨t, hrun⟩ := close_run (served le) hstate d
  rw [issueAll_removal le l.config.schema h.named] at hrun
  refine ⟨_, _, step_bind hrun, ⟨h.answers, fun t ht => ?_, fun _ => rfl⟩, rfl, fun b => ?_,
    fun hlistening => ?_⟩
  · cases ht
  · have hclose : ClosesNow l .close := ⟨rfl, hstate⟩
    have hstart : ¬ StartsOn l .close b.1 := by
      rintro ⟨filter, tables, heq, -⟩
      cases heq
    simp [Server.without, Server.withoutSchema, hclose, hstart, and_comm]
  · cases hlistening

end Performed

end

/-- Whatever happens to a listener on a server. -/
theorem performed {l : Listener} (h : Ready l) (o : Occurrence) (d : Server) :
    Performed l o d (((o.perform (served le)).run l).run d).1.2
      (((o.perform (served le)).run l).run d).2 := by
  cases o with
  | start filter =>
    by_cases hstate : l.state = .uninitialized
    · obtain ⟨l', d', hrun, hperformed, -⟩ := Performed.started le h filter hstate d
      rw [hrun]
      exact hperformed
    · rw [perform_start_rejected _ filter hstate]
      exact Performed.quiet (o := .start filter) h (fun _ ⟨_, _, _, hu, _⟩ => hstate hu)
        (fun ⟨hc, _⟩ => nomatch hc) (.refl l) d
  | close =>
    by_cases hstate : l.state = .listening
    · obtain ⟨l', d', hrun, hperformed⟩ := Performed.closed le h hstate d
      rw [hrun]
      exact hperformed
    · obtain ⟨l', hrun, halike⟩ := perform_close_ignored (served le) hstate d
      rw [hrun]
      exact Performed.quiet (o := .close) h (fun _ ⟨_, _, heq, _⟩ => nomatch heq)
        (fun ⟨_, hl⟩ => hstate hl) halike d
  | await =>
    obtain ⟨answer, l', hrun, halike⟩ := perform_quiet (served le) (.inl rfl) l d
    rw [hrun]
    exact Performed.quiet (o := .await) h (fun _ ⟨_, _, heq, _⟩ => nomatch heq)
      (fun ⟨hc, _⟩ => nomatch hc) halike d
  | wake w =>
    obtain ⟨answer, l', hrun, halike⟩ := perform_quiet (served le) (.inr ⟨w, rfl⟩) l d
    rw [hrun]
    exact Performed.quiet (o := .wake w) h (fun _ ⟨_, _, heq, _⟩ => nomatch heq)
      (fun ⟨hc, _⟩ => nomatch hc) halike d

/-! ### Several listeners on a server -/

/-- Listeners on one server. -/
structure World (ι : Type) where
  server : Server
  listeners : ι → Listener

namespace World

variable {ι : Type} [DecidableEq ι]

/-- Something happens to one of the listeners. -/
def perform (w : World ι) (step : ι × Occurrence) : World ι :=
  let ((_, l), d) := ((step.2.perform (served le)).run (w.listeners step.1)).run w.server
  { server := d, listeners := Function.update w.listeners step.1 l }

/-- The listeners and the server after all that happened in turn. -/
def after (w : World ι) (steps : List (ι × Occurrence)) : World ι :=
  steps.foldl (perform le) w

theorem after_singleton (w : World ι) (step : ι × Occurrence) :
    w.after le [step] = w.perform le step :=
  rfl

/-- A listener with this schema gives the table of the trigger its trigger now. -/
def Starts (w : World ι) (step : ι × Occurrence) (trigger : TriggerName) (schema : String) : Prop :=
  StartsOn (w.listeners step.1) step.2 trigger ∧ (w.listeners step.1).config.schema = schema

/-- Somebody replaces the trigger now, or a listener is closed that has installed it or has this
schema. -/
def Touches (w : World ι) (step : ι × Occurrence) (trigger : TriggerName) (schema : String) :
    Prop :=
  StartsOn (w.listeners step.1) step.2 trigger ∨
    ClosesNow (w.listeners step.1) step.2 ∧
      (trigger ∈ (w.listeners step.1).installed.map triggerNameOf ∨
        (w.listeners step.1).config.schema = schema)

/-- None of the steps touches the trigger. -/
def Untouched (trigger : TriggerName) (schema : String) : World ι → List (ι × Occurrence) → Prop
  | _, [] => True
  | w, step :: steps =>
    ¬ w.Touches step trigger schema ∧ Untouched trigger schema (w.perform le step) steps

/-- The last step that touched the trigger is the start of a listener with this schema. -/
def LastStarted (trigger : TriggerName) (schema : String) : World ι → List (ι × Occurrence) → Prop
  | _, [] => False
  | w, step :: steps =>
    w.Starts step trigger schema ∧ Untouched le trigger schema (w.perform le step) steps ∨
      LastStarted trigger schema (w.perform le step) steps

/-- Every statement of the step is granted. -/
def Granted (w : World ι) (step : ι × Occurrence) : Prop :=
  let l := w.listeners step.1
  match step.2 with
  | .start filter => l.state = .uninitialized →
    ∃ d, Listener.Granted le (plan l.catalog l.config filter) w.server d
  | .close => l.state = .listening →
    ∃ d, Listener.Granted le (removal l.config.schema l.installed) w.server d
  | _ => True

/-- Every statement of all the steps is granted. -/
def AllGranted : World ι → List (ι × Occurrence) → Prop
  | _, [] => True
  | w, step :: steps => w.Granted le step ∧ AllGranted (w.perform le step) steps

section

variable {le} {w : World ι} {step : ι × Occurrence} {trigger : TriggerName} {schema : String}

theorem performed (h : ∀ i, Ready (w.listeners i)) (step : ι × Occurrence) :
    Performed (w.listeners step.1) step.2 w.server ((w.perform le step).listeners step.1)
      (w.perform le step).server := by
  have hstep := Listener.performed le (h step.1) step.2 w.server
  rwa [show (w.perform le step).listeners step.1 =
    (((step.2.perform (served le)).run (w.listeners step.1)).run w.server).1.2 from
      Function.update_self ..]

theorem listeners_perform {i : ι} (h : i ≠ step.1) :
    (w.perform le step).listeners i = w.listeners i :=
  Function.update_of_ne h ..

theorem ready_perform (h : ∀ i, Ready (w.listeners i)) (i : ι) :
    Ready ((w.perform le step).listeners i) := by
  by_cases hi : i = step.1
  · subst hi
    exact (performed h step).ready
  · rw [listeners_perform hi]
    exact h i

variable (le) in
/-- A listener that is started listens, and its tables are those that the filter admits. -/
theorem listening_perform (h : ∀ i, Ready (w.listeners i)) (i : ι) (filter : Filter)
    (hstate : (w.listeners i).state = .uninitialized) {tables : List Table}
    (htables : (w.listeners i).catalog.tables = .ok tables) :
    ((w.perform le (i, .start filter)).listeners i).state = .listening ∧
      ((w.perform le (i, .start filter)).listeners i).installed =
        tables.filter filter.admits := by
  obtain ⟨l', d', hrun, -, hlistening, hinstalled⟩ :=
    Performed.started le (h i) filter hstate w.server
  have hl' : (w.perform le (i, .start filter)).listeners i = l' := by
    rw [perform, hrun]
    exact Function.update_self ..
  rw [hl']
  exact ⟨hlistening, hinstalled tables htables⟩

/-- What one step does to the binding of a trigger. -/
theorem bound_perform_iff (h : ∀ i, Ready (w.listeners i)) :
    (trigger, functionIn schema) ∈ (w.perform le step).server.triggers ↔
      w.Starts step trigger schema ∨
        (trigger, functionIn schema) ∈ w.server.triggers ∧ ¬ w.Touches step trigger schema := by
  rw [(performed h step).bound]
  have hschema : functionIn schema = functionIn (w.listeners step.1).config.schema ↔
      (w.listeners step.1).config.schema = schema :=
    ⟨fun heq => (congrArg FunctionName.schema heq).symm, fun heq => heq ▸ rfl⟩
  have hsame : (functionIn schema).schema = (w.listeners step.1).config.schema ↔
      (w.listeners step.1).config.schema = schema := eq_comm
  simp only [hschema, hsame, Starts, Touches, not_or]

variable (le) in
/-- In a run the last step that touched a trigger decides to what it is bound. -/
theorem bound_after_iff (h : ∀ i, Ready (w.listeners i)) (steps : List (ι × Occurrence))
    (trigger : TriggerName) (schema : String) :
    (trigger, functionIn schema) ∈ (w.after le steps).server.triggers ↔
      LastStarted le trigger schema w steps ∨
        (trigger, functionIn schema) ∈ w.server.triggers ∧ Untouched le trigger schema w steps := by
  -- on the steps from the first one, so the world in which they begin is general
  induction steps generalizing w with
  | nil => simp [after, LastStarted, Untouched]
  | cons step steps ih =>
    have hafter : w.after le (step :: steps) = (w.perform le step).after le steps := rfl
    rw [hafter, ih (ready_perform h), bound_perform_iff h, LastStarted, Untouched]
    grind

/-- A table that is installed after a run in which nothing touched its trigger was installed
before. -/
theorem installed_before (h : ∀ i, Ready (w.listeners i)) {steps : List (ι × Occurrence)} {i : ι}
    (hlistening : ((w.after le steps).listeners i).state = .listening) {t : Table}
    (ht : t ∈ ((w.after le steps).listeners i).installed)
    (huntouched : Untouched le (triggerNameOf t) schema w steps) :
    (w.listeners i).state = .listening ∧ t ∈ (w.listeners i).installed := by
  induction steps generalizing w with
  | nil => exact ⟨hlistening, ht⟩
  | cons step steps ih =>
    obtain ⟨htouches, hrest⟩ := huntouched
    obtain ⟨hstate, hmem⟩ := ih (ready_perform h) hlistening ht hrest
    by_cases hi : i = step.1
    · subst hi
      rcases (performed h step).installed hstate t hmem with hstart | ⟨hbefore, hmem, -⟩
      · exact absurd (.inl hstart) htouches
      · exact ⟨hbefore, hmem⟩
    · rw [listeners_perform hi] at hstate hmem
      exact ⟨hstate, hmem⟩

/-- On a server nothing is refused to listeners whose tables have identifiers. -/
theorem allGranted (h : ∀ i, Ready (w.listeners i)) (steps : List (ι × Occurrence)) :
    AllGranted le w steps := by
  induction steps generalizing w with
  | nil => trivial
  | cons step steps ih =>
    refine ⟨?_, ih (ready_perform h)⟩
    obtain ⟨i, o⟩ := step
    cases o with
    | start filter =>
      intro _
      obtain ⟨tables, htables, hnamed⟩ := (h i).answers
      obtain ⟨d, hgranted, -⟩ := Granted.plan le htables hnamed (w.listeners i).config
        filter w.server
      exact ⟨d, hgranted⟩
    | close => exact fun _ => ⟨_, Granted.removal le _ (h i).named w.server⟩
    | await => trivial
    | wake w => trivial

/-- A listener that is closed leaves no trigger on its tables, whoever created it. -/
theorem not_bound_of_close (h : ∀ i, Ready (w.listeners i)) {j : ι}
    (hstate : (w.listeners j).state = .listening) {t : Table}
    (ht : t ∈ (w.listeners j).installed) (f : FunctionName) :
    (triggerNameOf t, f) ∉ (w.perform le (j, .close)).server.triggers := by
  intro hf
  rcases ((performed h (j, .close)).bound (triggerNameOf t, f)).mp hf with
    ⟨⟨_, _, hstart, _⟩, -⟩ | ⟨-, -, hkept⟩
  · cases hstart
  · exact hkept ⟨⟨rfl, hstate⟩, .inl (List.mem_map_of_mem ht)⟩

/-- One listener is started, and then another one is started and closed. -/
def rivalry (i j : ι) (filter : Filter) : List (ι × Occurrence) :=
  [(i, .start filter), (j, .start filter), (j, .close)]

variable (le) in
/-- When two listeners watch the same tables, the first one listens on after the second one has
come and gone, without a trigger on any of its tables. -/
theorem unbound_by_rival (h : ∀ i, Ready (w.listeners i)) {i j : ι} (hij : i ≠ j)
    (filter : Filter) {tables : List Table}
    (hi : (w.listeners i).state = .uninitialized)
    (hitables : (w.listeners i).catalog.tables = .ok tables)
    (hj : (w.listeners j).state = .uninitialized)
    (hjtables : (w.listeners j).catalog.tables = .ok tables) :
    ((w.after le (rivalry i j filter)).listeners i).state = .listening ∧
      ((w.after le (rivalry i j filter)).listeners i).installed = tables.filter filter.admits ∧
      ∀ t ∈ tables.filter filter.admits, ∀ f,
        (triggerNameOf t, f) ∉ (w.after le (rivalry i j filter)).server.triggers := by
  obtain ⟨histate, hinstalled⟩ := listening_perform le h i filter hi hitables
  have hready : ∀ k, Ready ((w.perform le (i, .start filter)).listeners k) := ready_perform h
  have hjsame : (w.perform le (i, .start filter)).listeners j = w.listeners j :=
    listeners_perform hij.symm
  rw [← hjsame] at hj hjtables
  -- the world after each step is a variable from here on
  rw [after, rivalry, List.foldl_cons, List.foldl_cons, List.foldl_cons, List.foldl_nil]
  generalize w.perform le (i, .start filter) = w₁ at *
  obtain ⟨hjstate, hjinstalled⟩ := listening_perform le hready j filter hj hjtables
  have hready₂ : ∀ k, Ready ((w₁.perform le (j, .start filter)).listeners k) :=
    ready_perform hready
  have hisame : (w₁.perform le (j, .start filter)).listeners i = w₁.listeners i :=
    listeners_perform hij
  generalize w₁.perform le (j, .start filter) = w₂ at *
  rw [listeners_perform hij, hisame]
  refine ⟨histate, hinstalled, fun t ht f => ?_⟩
  exact not_bound_of_close hready₂ hjstate (hjinstalled ▸ ht) f

end

end World

/-! ### The main theorem -/

section

variable {ι : Type} [DecidableEq ι]

/-- Listeners that have not been started. -/
def unstarted (d : Server) (catalog : ι → Catalog) (config : ι → Config) (cache : ι → Cache) :
    World ι where
  server := d
  listeners i := { catalog := catalog i, config := config i, cache := cache i }

/-- A table of a listener that listens carries the trigger that calls the function of a schema if
and only if the last step that touched the trigger was the start of a listener with this schema. -/
theorem carries_trigger_iff (d : Server) (catalog : ι → Catalog) (config : ι → Config)
    (cache : ι → Cache)
    (hcatalog : ∀ i, ∃ tables, (catalog i).tables = .ok tables ∧ ∀ t ∈ tables, Named t)
    (steps : List (ι × Occurrence)) {w : World ι}
    (hw : w = (unstarted d catalog config cache).after le steps) {i : ι} {t : Table}
    (hlistening : (w.listeners i).state = .listening) (ht : t ∈ (w.listeners i).installed)
    (schema : String) :
    (triggerNameOf t, functionIn schema) ∈ w.server.triggers ∧
        functionIn schema ∈ w.server.functions ↔
      World.LastStarted le (triggerNameOf t) schema (unstarted d catalog config cache) steps := by
  subst hw
  have hready : ∀ i, Ready ((unstarted d catalog config cache).listeners i) :=
    fun i => ⟨hcatalog i, nofun, fun _ => rfl⟩
  have hbound := World.bound_after_iff le hready steps (triggerNameOf t) schema
  -- nothing is installed at the beginning, so the trigger of an installed table was touched
  have huntouched : ¬ World.Untouched le (triggerNameOf t) schema
      (unstarted d catalog config cache) steps := fun h =>
    nomatch (World.installed_before hready hlistening ht h).1
  constructor
  · rintro ⟨htrigger, -⟩
    exact (hbound.mp htrigger).resolve_right fun h => huntouched h.2
  · intro hlast
    have htrigger := hbound.mpr (.inl hlast)
    exact ⟨htrigger, Server.bound _ _ htrigger⟩

end

/-- Two listeners that have the same settings and watch one table, on a server without objects. -/
def plantsWorld : World Bool :=
  unstarted .empty (fun _ => .fixed [plants]) (fun _ => plantsConfig)
    fun _ => { store := .disabled }

theorem plants_answers (_ : Bool) : ∃ tables, (Catalog.fixed [plants]).tables = .ok tables ∧
    ∀ t ∈ tables, Named t :=
  ⟨[plants], rfl, fun _ ht => List.mem_singleton.mp ht ▸ named_ofName "public" "plants"⟩

theorem plantsWorld_ready (i : Bool) : Ready (plantsWorld.listeners i) :=
  ⟨plants_answers i, nofun, fun _ => rfl⟩

/-- The order in which the server found the triggers. -/
def asFound (_ _ : Trigger) : Bool :=
  true

theorem plants_admitted : [plants].filter Filter.all.admits = [plants] :=
  List.filter_cons_of_pos rfl

/-- The one that is started first carries its trigger. -/
theorem plants_carry_their_trigger :
    ((plantsWorld.after asFound [(true, .start .all)]).listeners true).state = .listening ∧
    plants ∈ ((plantsWorld.after asFound [(true, .start .all)]).listeners true).installed ∧
    (triggerNameOf plants, functionIn "featuretag_cdc") ∈
        (plantsWorld.after asFound [(true, .start .all)]).server.triggers ∧
      functionIn "featuretag_cdc" ∈
        (plantsWorld.after asFound [(true, .start .all)]).server.functions := by
  have hstate : (plantsWorld.listeners true).state = .uninitialized := rfl
  have htables : (plantsWorld.listeners true).catalog.tables = .ok [plants] := rfl
  have hlistening := World.listening_perform asFound plantsWorld_ready true .all hstate htables
  rw [← World.after_singleton, plants_admitted] at hlistening
  have hmem : plants ∈
      ((plantsWorld.after asFound [(true, .start .all)]).listeners true).installed := by
    rw [hlistening.2]
    exact List.mem_singleton_self plants
  have hstarts : plantsWorld.Starts (true, .start .all) (triggerNameOf plants) "featuretag_cdc" :=
    ⟨⟨.all, [plants], rfl, hstate, htables, List.mem_singleton_self _⟩, rfl⟩
  have hcarries := carries_trigger_iff asFound .empty (fun _ : Bool => .fixed [plants])
    (fun _ => plantsConfig) (fun _ => { store := .disabled }) plants_answers
    [(true, .start .all)] (w := plantsWorld.after asFound [(true, .start .all)]) rfl
    hlistening.1 hmem "featuretag_cdc"
  exact ⟨hlistening.1, hmem, hcarries.mpr (.inl ⟨hstarts, trivial⟩)⟩

/-- When the other one is started and closed, no statement fails, and the first one listens on with
the table on its list, but the table has no trigger any more. -/
theorem plants_lose_their_trigger :
    World.AllGranted asFound plantsWorld (World.rivalry true false .all) ∧
    ((plantsWorld.after asFound (World.rivalry true false .all)).listeners true).state =
      .listening ∧
    ((plantsWorld.after asFound (World.rivalry true false .all)).listeners true).installed =
      [plants] ∧
    ∀ f, (triggerNameOf plants, f) ∉
      (plantsWorld.after asFound (World.rivalry true false .all)).server.triggers := by
  have hstate : ∀ i, (plantsWorld.listeners i).state = .uninitialized := fun _ => rfl
  have htables : ∀ i, (plantsWorld.listeners i).catalog.tables = .ok [plants] := fun _ => rfl
  have hrival := World.unbound_by_rival asFound plantsWorld_ready
    (by decide : true ≠ false) .all (hstate true) (htables true) (hstate false) (htables false)
  rw [plants_admitted] at hrival
  obtain ⟨hlistening, hinstalled, hnone⟩ := hrival
  exact ⟨World.allGranted plantsWorld_ready _, hlistening, hinstalled,
    hnone plants (List.mem_singleton_self plants)⟩

end FreshTag.Listener
