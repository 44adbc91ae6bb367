/-
FreshTag/Proofs/Listener/Leftovers.lean

Removing what a listener left behind.  The list of triggers comes from the server,
with the names as the server writes them; each of them is dropped by these names,
and then the schema.  On any server this comes to the same as dropping the schema
(`removeLeftovers_run`): the triggers of the list call a function of that schema,
and dropping them touches no others, as no table has two triggers of one name.

So nothing depends on what the listener had done before it broke off.  A `lifetime`
is all that a listener puts from its start to its close; after any part of it the
leftovers are removed, and removed once for all (`leftovers_are_removed`).
-/
import FreshTag.Listener.Leftovers
import FreshTag.Listener.Lifecycle
import FreshTag.Proofs.Database.Server

namespace FreshTag.Listener

open FreshTag.Catalog (Filter)
open FreshTag.Database (FunctionName Request Server Trigger TriggerName attempt_ask attempt_bind_ok
  functionName issueAll served spelled)

/-! ### What a listener puts in its life -/

section

variable {σ : Type}

/-- Asks, and keeps the request. -/
def noting {α : Type} (r : Request) (op : StateM σ α) : StateM (σ × List Request) α :=
  fun (x, asked) => ((op x).1, ((op x).2, asked ++ [r]))

/-- A database that keeps what it is asked. -/
def noted (db : Database (StateM σ)) : Database (StateM (σ × List Request)) where
  tables := noting .tables db.tables
  triggers schema := noting (.triggers schema) (db.triggers schema)
  run c := noting (.run c) (db.run c)
  listen channel := noting (.listen channel) (db.listen channel)
  listenAgain channel := noting (.listenAgain channel) (db.listenAgain channel)

/-- A listener is started and closed. -/
def startAndClose {m : Type → Type} [Monad m] (db : Database m) (filter : Filter) : Step m Unit := do
  let _ ← start db filter
  close db

/-- The requests of a listener from its start to its close, in their order. -/
def lifetime (db : Database (StateM σ)) (l : Listener) (filter : Filter) (x : σ) : List Request :=
  (((startAndClose (noted db) filter).run l).run (x, [])).2.2

end

/-! ### Removing on a server -/

variable (le : Trigger → Trigger → Bool)

/-- The triggers of a list are dropped, and no others. -/
theorem dropLeftovers_run (ts : List TriggerName) (t : Telemetry) (d : Server) :
    ∃ t', ((dropLeftovers (served le) (ts.map spelled)).run.run t).run d =
      ((.ok (), t'), d.without ts) := by
  induction ts generalizing t d with
  | nil => exact ⟨t, by rw [Server.without_nil]; rfl⟩
  | cons trigger ts ih =>
    rw [List.map_cons]
    unfold dropLeftovers
    have hask := @attempt_ask _ Error _ _ ((served le).run (.dropTrigger (spelled trigger))) t d
    rw [Database.run_dropSpelled] at hask
    obtain ⟨t', ht'⟩ := ih (t.record .listener .info "Dropped leftover notify trigger"
      [Log.field "table" (spelled trigger).table, Log.field "trigger" (spelled trigger).name])
      (d.without [trigger])
    rw [Server.without_without] at ht'
    exact ⟨t', (attempt_bind_ok hask).trans ht'⟩

/-- The triggers that call the function of a schema go with the schema. -/
theorem withoutSchema_without (d : Server) (schema : String) {ts : List TriggerName}
    (h : ∀ t, t ∈ ts ↔ t ∈ d.boundTo schema) :
    (d.without ts).withoutSchema schema = d.withoutSchema schema := by
  ext1
  · rfl
  · rfl
  · show (d.triggers.filter _).filter _ = d.triggers.filter _
    rw [List.filter_filter]
    refine List.filter_congr fun b hb => ?_
    rcases hschema : decide (b.2.schema ≠ schema) with - | -
    · exact Bool.false_and _
    · -- a trigger that calls another function is not on the list
      have hnot : b.1 ∉ ts := by
        rw [h, Server.mem_boundTo_iff]
        intro hbound
        have heq := Server.function_unique hbound hb
        exact of_decide_eq_true hschema (congrArg FunctionName.schema heq.symm)
      rw [Bool.true_and]
      exact decide_eq_true hnot

/-- The leftovers are removed as if the schema had been dropped, and the triggers are counted. -/
theorem removeLeftovers_run (schema : String) (t : Telemetry) (d : Server) :
    ∃ t', ((removeLeftovers (served le) schema).run.run t).run d =
      ((.ok (d.boundTo schema).length, t'), d.withoutSchema schema) := by
  generalize hts : (d.boundTo schema).mergeSort (fun t u => le (spelled t) (spelled u)) = ts
  have hperm : ts.Perm (d.boundTo schema) := hts ▸ List.mergeSort_perm _ _
  have hlist : (served le).triggers schema d = (.ok (ts.map spelled), d) := by
    rw [← hts]
    rfl
  have hask := @attempt_ask _ Error _ _ ((served le).triggers schema) t d
  rw [hlist] at hask
  obtain ⟨t', hdrop⟩ := dropLeftovers_run le ts t d
  have hlast := @attempt_ask _ Error _ _ ((served le).run (.dropSchema schema)) t' (d.without ts)
  rw [Database.run_dropSchema, withoutSchema_without d schema fun t => hperm.mem_iff] at hlast
  have hlength : (ts.map spelled).length = (d.boundTo schema).length := by
    rw [List.length_map, hperm.length_eq]
  refine ⟨t', (attempt_bind_ok hask).trans ((attempt_bind_ok hdrop).trans
    ((attempt_bind_ok hlast).trans ?_))⟩
  rw [← hlength]
  rfl

/-! ### The main theorem -/

theorem boundTo_withoutSchema (d : Server) (schema : String) :
    (d.withoutSchema schema).boundTo schema = [] := by
  refine List.eq_nil_iff_forall_not_mem.mpr fun t ht => ?_
  have hmem := (List.mem_filter.mp (Server.mem_boundTo_iff.mp ht)).2
  exact of_decide_eq_true hmem rfl

theorem withoutSchema_twice (d : Server) (schema : String) :
    (d.withoutSchema schema).withoutSchema schema = d.withoutSchema schema := by
  ext1 <;> simp [Server.withoutSchema, List.filter_filter]

/-- The server after the first `k` requests of a listener, which then broke off. -/
def brokenOff (d : Server) (l : Listener) (filter : Filter) (k : Nat) : Server :=
  issueAll (served le) ((lifetime (served le) l filter d).take k) d

/-- Let a listener break off at any point of its life.  Then removing its leftovers answers how
many triggers call the function of its schema, none of them and no such schema is left, all that
belongs to other schemas is left as it was, and a second time finds nothing to do. -/
theorem leftovers_are_removed (d₀ : Server) (l : Listener) (filter : Filter) (k : Nat)
    (t : Telemetry) :
    ∃ t' d', ((removeLeftovers (served le) l.config.schema).run.run t).run
          (brokenOff le d₀ l filter k) =
        ((.ok ((brokenOff le d₀ l filter k).boundTo l.config.schema).length, t'), d') ∧
      l.config.schema ∉ d'.schemas ∧ (∀ b ∈ d'.triggers, b.2.schema ≠ l.config.schema) ∧
      (∀ b, b.2.schema ≠ l.config.schema →
        (b ∈ d'.triggers ↔ b ∈ (brokenOff le d₀ l filter k).triggers)) ∧
      (∀ f, f.schema ≠ l.config.schema →
        (f ∈ d'.functions ↔ f ∈ (brokenOff le d₀ l filter k).functions)) ∧
      (∀ schema, schema ≠ l.config.schema →
        (schema ∈ d'.schemas ↔ schema ∈ (brokenOff le d₀ l filter k).schemas)) ∧
      ∀ t, ∃ t', ((removeLeftovers (served le) l.config.schema).run.run t).run d' =
        ((.ok 0, t'), d') := by
  generalize brokenOff le d₀ l filter k = d
  obtain ⟨t', hrun⟩ := removeLeftovers_run le l.config.schema t d
  refine ⟨t', d.withoutSchema l.config.schema, hrun, ?_, ?_, ?_, ?_, ?_, fun t => ?_⟩
  · simp [Server.withoutSchema]
  · exact fun b hb => of_decide_eq_true (List.mem_filter.mp hb).2
  · exact fun b hb => List.mem_filter.trans (and_iff_left (decide_eq_true hb))
  · exact fun f hf => List.mem_filter.trans (and_iff_left (decide_eq_true hf))
  · exact fun s hs => List.mem_filter.trans (and_iff_left (decide_eq_true hs))
  · obtain ⟨t', hagain⟩ := removeLeftovers_run le l.config.schema t
      (d.withoutSchema l.config.schema)
    rw [boundTo_withoutSchema, withoutSchema_twice] at hagain
    exact ⟨t', hagain⟩

end FreshTag.Listener
