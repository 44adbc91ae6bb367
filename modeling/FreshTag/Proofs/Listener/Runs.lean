/-
FreshTag/Proofs/Listener/Runs.lean

All that can happen to one listener: it is started, closed, asked for its result,
and its task wakes up, in any order and as often as one likes.  The database
answers by a script, so that any request may be refused.

A listener is `Accounted` for by the requests that it has put: while it listens,
the tables it counts as installed are those for which the creation of a trigger
was granted, and otherwise there are none.  Whatever happens keeps this
(`Accounted.perform`), and so whatever ends the listener removes exactly what it
installed (`removes_what_it_installed`).
-/
import FreshTag.Proofs.Listener.Installation
import Mathlib.Data.List.Induction

namespace FreshTag.Listener

open FreshTag.Catalog (Table Filter)
open FreshTag.Database (Request Script issue issueAll scripted)

/-! ### What happens to a listener -/

/-- What can happen to a listener. -/
inductive Occurrence where
  | start (filter : Filter)
  /-- its result is asked for, which is there once its task has ended -/
  | await
  | close
  /-- something reaches its task -/
  | wake (w : Wake)

/-- What a listener does, and what it answers. -/
def Occurrence.perform {m : Type → Type} [Monad m] (db : Database m) :
    Occurrence → Step m (Option Result)
  | .start filter => do return some (← Listener.start db filter)
  | .await => modifyGet takeResult
  | .close => do
    Listener.close db
    return none
  | .wake w => do
    modify fun l => (l.deliver w).settle
    return none

/-- The listener, and what it has put to the database, after all that happened in turn. -/
def after (s : Script) (l : Listener) (past : List Occurrence) : Listener × List Request :=
  past.foldl
    (fun (l, asked) o =>
      let ((_, l), asked) := ((o.perform (scripted s)).run l).run asked
      (l, asked))
    (l, [])

theorem after_concat (s : Script) (l : Listener) (past : List Occurrence) (o : Occurrence) :
    after s l (past ++ [o]) =
      ((((o.perform (scripted s)).run (after s l past).1).run (after s l past).2).1.2,
        (((o.perform (scripted s)).run (after s l past).1).run (after s l past).2).2) := by
  rw [after, List.foldl_append]
  rfl

/-- The two listeners differ in their cache and their task at most. -/
structure Alike (l l' : Listener) : Prop where
  catalog : l'.catalog = l.catalog
  config : l'.config = l.config
  state : l'.state = l.state
  installed : l'.installed = l.installed

namespace Alike

theorem refl (l : Listener) : Alike l l :=
  ⟨rfl, rfl, rfl, rfl⟩

theorem trans {l l' l'' : Listener} (h : Alike l l') (h' : Alike l' l'') : Alike l l'' :=
  ⟨h'.catalog.trans h.catalog, h'.config.trans h.config, h'.state.trans h.state,
    h'.installed.trans h.installed⟩

theorem settle (l : Listener) : Alike l l.settle := by
  unfold Listener.settle
  rcases l.task with - | ⟨pending, inbox⟩ | result <;> exact ⟨rfl, rfl, rfl, rfl⟩

theorem deliver (w : Wake) (l : Listener) : Alike l (l.deliver w) := by
  unfold Listener.deliver
  rcases l.task with - | ⟨pending, inbox⟩ | result <;> exact ⟨rfl, rfl, rfl, rfl⟩

theorem takeResult (l : Listener) : Alike l l.takeResult.2 := by
  refine (settle l).trans ?_
  rcases htask : l.settle.task with - | ⟨pending, inbox⟩ | result <;>
    simp only [Listener.takeResult, htask] <;> exact ⟨rfl, rfl, rfl, rfl⟩

end Alike

/-! ### What each of them does -/

/-- Asking for the result and waking up put nothing to the database. -/
theorem perform_quiet {σ : Type} (db : Database (StateM σ)) {o : Occurrence}
    (ho : o = .await ∨ ∃ w, o = .wake w) (l : Listener) (x : σ) :
    ∃ answer l', ((o.perform db).run l).run x = ((answer, l'), x) ∧ Alike l l' := by
  rcases ho with rfl | ⟨w, rfl⟩
  · exact ⟨_, _, rfl, .takeResult l⟩
  · exact ⟨_, _, rfl, (Alike.deliver w l).trans (.settle _)⟩

/-- Closing a listener that does not listen puts nothing to the database. -/
theorem perform_close_ignored {σ : Type} (db : Database (StateM σ)) {l : Listener}
    (h : l.state ≠ .listening) (x : σ) :
    ∃ l', ((Occurrence.close.perform db).run l).run x = ((none, l'), x) ∧ Alike l l' := by
  obtain ⟨t, hclose⟩ := close_ignored db h x
  exact ⟨l.reporting t, step_bind hclose, ⟨rfl, rfl, rfl, rfl⟩⟩

/-- Closing a listener that listens removes what counts as installed. -/
theorem perform_close (s : Script) {l : Listener} (h : l.state = .listening)
    (asked : List Request) :
    ∃ l', ((Occurrence.close.perform (scripted s)).run l).run asked =
        ((none, l'), asked ++ removal l.config.schema l.installed) ∧
      l'.catalog = l.catalog ∧ l'.config = l.config ∧ l'.state = .closed ∧ l'.installed = [] := by
  obtain ⟨t, hclose⟩ := close_run (scripted s) h asked
  rw [Database.issueAll_scripted] at hclose
  exact ⟨_, step_bind hclose, rfl, rfl, rfl, rfl⟩

theorem perform_start_rejected {σ : Type} (db : Database (StateM σ)) (filter : Filter)
    {l : Listener} (h : l.state ≠ .uninitialized) (x : σ) :
    (((Occurrence.start filter).perform db).run l).run x =
      ((some (.error (.invalidState "initialize" l.state)), l), x) :=
  step_bind (start_rejected db filter h x)

section

variable {s : Script} {filter : Filter} {l : Listener} {asked : List Request}

/-- Starting succeeds if nothing is refused, and the tables that the filter admits count as
installed. -/
theorem perform_start (h : l.state = .uninitialized) (hinstalled : l.installed = [])
    {tables : List Table} (htables : l.catalog.tables = .ok tables)
    (hgranted : (issue (scripted s) (plan l.catalog l.config filter) asked).1.refused = none) :
    ∃ l', (((Occurrence.start filter).perform (scripted s)).run l).run asked =
        ((some (.ok ()), l'), asked ++ plan l.catalog l.config filter) ∧
      l'.catalog = l.catalog ∧ l'.config = l.config ∧ l'.state = .listening ∧
      l'.installed = tables.filter filter.admits := by
  have hall := (Database.granted_issue (scripted s) (plan l.catalog l.config filter) asked).2
    hgranted
  have hput := Database.issue_scripted s (plan l.catalog l.config filter) asked
  rcases hissue : issue (scripted s) (plan l.catalog l.config filter) asked with ⟨i, y⟩
  rw [hissue] at hgranted hall hput
  have hanswer : answerOf (catalogAnswer l.catalog) i = .ok () := by
    rw [answerOf, hgranted, catalogAnswer, htables]
  obtain ⟨t, hstart⟩ := start_succeeds h hissue hanswer
  have hrequests : i.requests = plan l.catalog l.config filter :=
    (Database.Issued.requests_of_granted hgranted).trans hall
  refine ⟨({ l with
      installed := l.installed ++ created i.granted
      task := some (.waiting {} []), state := .listening } : Listener).reporting t,
    (step_bind hstart).trans ?_, rfl, rfl, rfl, ?_⟩
  · rw [show y = asked ++ plan l.catalog l.config filter from hput.trans (by rw [hrequests])]
    rfl
  · show l.installed ++ created i.granted = _
    rw [hinstalled, hall, List.nil_append]
    exact created_plan htables l.config filter

/-- Starting that fails removes the tables of which the creation was granted. -/
theorem perform_start_failed (h : l.state = .uninitialized) (hinstalled : l.installed = [])
    (hfails : (issue (scripted s) (plan l.catalog l.config filter) asked).1.refused ≠ none ∨
      ∀ tables, l.catalog.tables ≠ .ok tables) :
    ∃ e l', (((Occurrence.start filter).perform (scripted s)).run l).run asked =
        ((some (.error e), l'),
          asked ++ (issue (scripted s) (plan l.catalog l.config filter) asked).1.requests ++
            removal l.config.schema
              (created (issue (scripted s) (plan l.catalog l.config filter) asked).1.granted)) ∧
      l'.catalog = l.catalog ∧ l'.config = l.config ∧ l'.state = .closed ∧ l'.installed = [] := by
  have hput := Database.issue_scripted s (plan l.catalog l.config filter) asked
  rcases hissue : issue (scripted s) (plan l.catalog l.config filter) asked with ⟨i, y⟩
  rw [hissue] at hfails hput
  obtain ⟨e, hanswer⟩ : ∃ e, answerOf (catalogAnswer l.catalog) i = .error e := by
    unfold answerOf
    rcases hrefused : i.refused with - | ⟨r, cause⟩
    · rcases hcatalog : l.catalog.tables with cause | tables
      · exact ⟨_, by rw [catalogAnswer, hcatalog]⟩
      · exact absurd hcatalog (hfails.resolve_left (not_not_intro hrefused) tables)
    · exact ⟨_, rfl⟩
  obtain ⟨t, hstart⟩ := start_fails h hissue hanswer
  refine ⟨e, ({ l with installed := [], state := .closed } : Listener).reporting t,
    (step_bind hstart).trans ?_, rfl, rfl, rfl, rfl⟩
  rw [Database.issueAll_scripted, show y = asked ++ i.requests from hput, hinstalled]
  rfl

end

/-! ### Runs -/

/-- The tables of which the creation of a trigger was granted. -/
def carrying (s : Script) (asked : List Request) : List Table :=
  created (s.granted [] asked)

/-- What a listener has put accounts for the tables that it counts as installed. -/
structure Accounted (s : Script) (catalog : Catalog) (config : Config) (l : Listener)
    (asked : List Request) : Prop where
  catalog : l.catalog = catalog
  config : l.config = config
  state : l.state = .uninitialized ∨ l.state = .listening ∨ l.state = .closed
  untouched : l.state = .uninitialized → asked = []
  installed : l.installed = if l.state = .listening then carrying s asked else []

namespace Accounted

variable {s : Script} {catalog : Catalog} {config : Config} {l l' : Listener}
  {asked : List Request}

theorem alike (h : Accounted s catalog config l asked) (h' : Alike l l') :
    Accounted s catalog config l' asked where
  catalog := h'.catalog.trans h.catalog
  config := h'.config.trans h.config
  state := h'.state ▸ h.state
  untouched := h'.state ▸ h.untouched
  installed := h'.state ▸ h'.installed.trans h.installed

theorem of_closed (hcatalog : l.catalog = catalog) (hconfig : l.config = config)
    (hstate : l.state = .closed) (hinstalled : l.installed = []) :
    Accounted s catalog config l asked where
  catalog := hcatalog
  config := hconfig
  state := .inr (.inr hstate)
  untouched h := absurd (hstate.symm.trans h) nofun
  installed := by rw [hinstalled, hstate, if_neg nofun]

/-- While the listener is not at work, no table counts as installed. -/
theorem nothing_installed (h : Accounted s catalog config l asked) (hstate : l.state ≠ .listening) :
    l.installed = [] :=
  h.installed.trans (if_neg hstate)

theorem installed_eq (h : Accounted s catalog config l asked) (hstate : l.state = .listening) :
    l.installed = carrying s asked :=
  h.installed.trans (if_pos hstate)

/-- The tables of a plan that was granted as a whole carry triggers. -/
theorem carrying_plan {filter : Filter} {tables : List Table}
    (htables : catalog.tables = .ok tables)
    (hgranted : (issue (scripted s) (plan catalog config filter) []).1.refused = none) :
    carrying s (plan catalog config filter) = tables.filter filter.admits := by
  have hall := (Database.granted_issue (scripted s) (plan catalog config filter) []).2 hgranted
  have hrequests := Database.granted_requests s (plan catalog config filter) []
  rw [Database.Issued.requests_of_granted hgranted, hall] at hrequests
  rw [carrying, hrequests, created_plan htables]

/-- Whatever happens next, the listener remains accounted for. -/
theorem perform (h : Accounted s catalog config l asked) (o : Occurrence) :
    Accounted s catalog config (((o.perform (scripted s)).run l).run asked).1.2
      (((o.perform (scripted s)).run l).run asked).2 := by
  cases o with
  | start filter =>
    by_cases hstate : l.state = .uninitialized
    · have hnone := h.nothing_installed (hstate ▸ nofun)
      obtain rfl := h.untouched hstate
      obtain rfl := h.catalog
      obtain rfl := h.config
      -- a start fails where a statement is refused or the catalog cannot be read
      by_cases hok : (issue (scripted s) (plan l.catalog l.config filter) []).1.refused = none ∧
          ∃ tables, l.catalog.tables = .ok tables
      · obtain ⟨hgranted, tables, htables⟩ := hok
        obtain ⟨l', hrun, hcatalog, hconfig, hlistening, hinstalled⟩ :=
          perform_start hstate hnone htables hgranted
        rw [hrun]
        refine ⟨hcatalog, hconfig, .inr (.inl hlistening),
          fun hu => absurd (hlistening.symm.trans hu) nofun, ?_⟩
        rw [if_pos hlistening, hinstalled]
        exact (carrying_plan htables hgranted).symm
      · have hfails : (issue (scripted s) (plan l.catalog l.config filter) []).1.refused ≠ none ∨
            ∀ tables, l.catalog.tables ≠ .ok tables := by
          rwa [not_and_or, not_exists] at hok
        obtain ⟨e, l', hrun, hcatalog, hconfig, hclosed, hinstalled⟩ :=
          perform_start_failed hstate hnone hfails
        rw [hrun]
        exact of_closed hcatalog hconfig hclosed hinstalled
    · rw [perform_start_rejected _ filter hstate]
      exact h
  | await =>
    obtain ⟨answer, l', hrun, halike⟩ := perform_quiet (scripted s) (.inl rfl) l asked
    rw [hrun]
    exact h.alike halike
  | close =>
    by_cases hstate : l.state = .listening
    · obtain ⟨l', hrun, hcatalog, hconfig, hclosed, hinstalled⟩ := perform_close s hstate asked
      rw [hrun]
      exact of_closed (hcatalog.trans h.catalog) (hconfig.trans h.config) hclosed hinstalled
    · obtain ⟨l', hrun, halike⟩ := perform_close_ignored (scripted s) hstate asked
      rw [hrun]
      exact h.alike halike
  | wake w =>
    obtain ⟨answer, l', hrun, halike⟩ := perform_quiet (scripted s) (.inr ⟨w, rfl⟩) l asked
    rw [hrun]
    exact h.alike halike

/-- A listener is accounted for at every moment of its life. -/
theorem after (s : Script) (catalog : Catalog) (config : Config) (cache : Cache)
    (past : List Occurrence) :
    Accounted s catalog config (Listener.after s { catalog, config, cache } past).1
      (Listener.after s { catalog, config, cache } past).2 := by
  induction past using List.reverseRecOn with
  | nil => exact ⟨rfl, rfl, .inl rfl, fun _ => rfl, rfl⟩
  | append_singleton past o ih =>
    rw [after_concat]
    exact ih.perform o

end Accounted

/-- Nothing is put any more once the listener is closed. -/
theorem after_closed (s : Script) (l : Listener) (past later : List Occurrence)
    (h : (after s l past).1.state = .closed) :
    (after s l (past ++ later)).2 = (after s l past).2 ∧
      (after s l (past ++ later)).1.state = .closed ∧
      (after s l (past ++ later)).1.installed = (after s l past).1.installed := by
  induction later using List.reverseRecOn with
  | nil => rw [List.append_nil]; exact ⟨rfl, h, rfl⟩
  | append_singleton later o ih =>
    obtain ⟨hasked, hstate, hinstalled⟩ := ih
    rw [← List.append_assoc, after_concat]
    generalize after s l (past ++ later) = now at *
    obtain ⟨l', asked⟩ := now
    obtain ⟨answer, l'', hrun, halike⟩ : ∃ answer l'',
        ((o.perform (scripted s)).run l').run asked = ((answer, l''), asked) ∧ Alike l' l'' := by
      cases o with
      | start filter =>
        exact ⟨_, l', perform_start_rejected _ filter (hstate ▸ nofun) asked, .refl l'⟩
      | await => exact perform_quiet _ (.inl rfl) l' asked
      | close =>
        obtain ⟨l'', hrun, halike⟩ :=
          perform_close_ignored (scripted s) (hstate ▸ nofun : l'.state ≠ .listening) asked
        exact ⟨none, l'', hrun, halike⟩
      | wake w => exact perform_quiet _ (.inr ⟨w, rfl⟩) l' asked
    rw [hrun]
    exact ⟨hasked, halike.state.trans hstate, halike.installed.trans hinstalled⟩

/-! ### The main theorem -/

/-- Whatever has happened to a listener, and whatever is refused: it is started at its beginning
only, and then puts the plan up to the first refusal.  If that fails, and when a listener is
closed that listens, the triggers of which the creation was granted are dropped in their order
and then the schema.  Nothing else puts anything, and nothing does after that. -/
theorem removes_what_it_installed (s : Script) (catalog : Catalog) (config : Config)
    (cache : Cache) (past : List Occurrence) {l : Listener} {asked : List Request}
    (h : after s { catalog, config, cache } past = (l, asked)) :
    (∀ filter, l.state ≠ .uninitialized →
      (((Occurrence.start filter).perform (scripted s)).run l).run asked =
        ((some (.error (.invalidState "initialize" l.state)), l), asked)) ∧
    (∀ filter tables, l.state = .uninitialized → catalog.tables = .ok tables →
      (issue (scripted s) (plan catalog config filter) asked).1.refused = none →
      ∃ l', (((Occurrence.start filter).perform (scripted s)).run l).run asked =
          ((some (.ok ()), l'), asked ++ plan catalog config filter) ∧
        l'.state = .listening ∧ l'.installed = tables.filter filter.admits) ∧
    (∀ filter put, l.state = .uninitialized →
      ((issue (scripted s) (plan catalog config filter) asked).1.refused ≠ none ∨
        ∀ tables, catalog.tables ≠ .ok tables) →
      put = asked ++ (issue (scripted s) (plan catalog config filter) asked).1.requests →
      ∃ e l', (((Occurrence.start filter).perform (scripted s)).run l).run asked =
          ((some (.error e), l'), put ++ removal config.schema (carrying s put)) ∧
        l'.state = .closed ∧ l'.installed = []) ∧
    (l.state = .listening → l.installed = carrying s asked ∧
      ∃ l', ((Occurrence.close.perform (scripted s)).run l).run asked =
          ((none, l'), asked ++ removal config.schema (carrying s asked)) ∧
        l'.state = .closed ∧ l'.installed = []) ∧
    (∀ o : Occurrence, (o = .close ∧ l.state ≠ .listening ∨ o = .await ∨ ∃ w, o = .wake w) →
      ∃ answer l', ((o.perform (scripted s)).run l).run asked = ((answer, l'), asked) ∧
        l'.state = l.state ∧ l'.installed = l.installed) ∧
    (l.state = .closed → l.installed = [] ∧ ∀ later,
      (after s { catalog, config, cache } (past ++ later)).2 = asked ∧
        (after s { catalog, config, cache } (past ++ later)).1.state = .closed ∧
        (after s { catalog, config, cache } (past ++ later)).1.installed = []) := by
  have haccounted : Accounted s catalog config l asked := by
    simpa only [h] using Accounted.after s catalog config cache past
  have hclosed := after_closed s { catalog, config, cache } past
  simp only [h] at hclosed
  obtain rfl := haccounted.catalog
  obtain rfl := haccounted.config
  refine ⟨fun filter hstate => perform_start_rejected _ filter hstate asked,
    fun filter tables hstate htables hgranted => ?_,
    fun filter put hstate hfails hput => ?_, fun hstate => ?_, fun o ho => ?_, fun hstate => ?_⟩
  · have hnone := haccounted.nothing_installed (hstate ▸ nofun)
    obtain ⟨l', hrun, -, -, hlistening, hinstalled⟩ :=
      perform_start hstate hnone htables hgranted
    exact ⟨l', hrun, hlistening, hinstalled⟩
  · have hnone := haccounted.nothing_installed (hstate ▸ nofun)
    obtain rfl := haccounted.untouched hstate
    obtain ⟨e, l', hrun, -, -, hclosed, hinstalled⟩ := perform_start_failed hstate hnone hfails
    -- what was put is all there is in the log, so the log says what was granted
    have hcarrying : carrying s put =
        created (issue (scripted s) (plan l.catalog l.config filter) []).1.granted := by
      rw [carrying, hput, List.nil_append, Database.granted_requests]
    rw [hcarrying, hput]
    exact ⟨e, l', hrun, hclosed, hinstalled⟩
  · obtain ⟨l', hrun, -, -, hclosed, hinstalled⟩ := perform_close s hstate asked
    rw [haccounted.installed_eq hstate] at hrun
    exact ⟨haccounted.installed_eq hstate, l', hrun, hclosed, hinstalled⟩
  · rcases ho with ⟨rfl, hstate⟩ | ho
    · obtain ⟨l', hrun, halike⟩ := perform_close_ignored (scripted s) hstate asked
      exact ⟨none, l', hrun, halike.state, halike.installed⟩
    · obtain ⟨answer, l', hrun, halike⟩ := perform_quiet (scripted s) ho l asked
      exact ⟨answer, l', hrun, halike.state, halike.installed⟩
  · have hnone := haccounted.nothing_installed (hstate ▸ nofun)
    refine ⟨hnone, fun later => ?_⟩
    obtain ⟨hasked, hlater, hinstalled⟩ := hclosed later hstate
    exact ⟨hasked, hlater, hinstalled.trans hnone⟩

/-- A database that grants the five requests of a start and none after them. -/
def grantsFive : Script where
  refuses asked _ := if asked.length < 5 then none else some "the server is shutting down"

def plants : Table := .ofName "public" "plants"

def plantsConfig : Config := { schema := "featuretag_cdc", waitMilliseconds := 5000, chunk := 1000 }

/-- A listener of one table. -/
def plantsListener : Listener :=
  { catalog := .fixed [plants], config := plantsConfig, cache := { store := .disabled } }

/-- A table that carries a trigger is cleared at the end, although everything is refused then. -/
theorem removes_plants :
    (after grantsFive plantsListener [.start .all]).1.installed = [plants] ∧
    ∃ l', ((Occurrence.close.perform (scripted grantsFive)).run
          (after grantsFive plantsListener [.start .all]).1).run
        (plan (.fixed [plants]) plantsConfig .all) =
      ((none, l'), plan (.fixed [plants]) plantsConfig .all ++
        [.run (.dropTrigger (Database.triggerOf plants)), .run (.dropSchema "featuretag_cdc")]) ∧
      l'.state = .closed ∧ l'.installed = [] := by
  have hafter : after grantsFive plantsListener [.start .all] =
      ((after grantsFive plantsListener [.start .all]).1,
        plan (.fixed [plants]) plantsConfig .all) := rfl
  have hlistening : (after grantsFive plantsListener [.start .all]).1.state = .listening := rfl
  obtain ⟨-, -, -, hclose, -, -⟩ := removes_what_it_installed grantsFive (.fixed [plants])
    plantsConfig { store := .disabled } [.start .all] hafter
  exact hclose hlistening

end FreshTag.Listener
