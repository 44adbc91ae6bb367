/-
FreshTag/Proofs/Cache/Programs.lean

What a caller does to a cache, as a tree: the next command, and for each answer
to it what comes then.  Run from beginning to end a program is an operation on
the cache (`run`), and running it is sending its commands one by one
(`run_step`), so that the commands of other callers may come between them.
Remembering a served feature is such a program (`run_remembering`).

A property of stores that every command keeps is kept by every program
(`KeptByCommands.run`).
-/
import FreshTag.Conditional

namespace FreshTag.Cache

/-- Commands to a cache, each depending on the answers to the earlier ones. -/
inductive Program (α : Type) where
  | done (x : α)
  | report (f : Telemetry → Telemetry) (rest : Program α)
  | find (key : String) (rest : Except Error (Option WeakEtag) → Program α)
  | add (key : String) (etag : WeakEtag) (rest : Except Error Bool → Program α)
  | remove (key : String) (rest : Except Error Bool → Program α)

namespace Program

variable {α β : Type}

/-- All commands, one after the other. -/
def run : Program α → StateM Cache α
  | .done x => pure x
  | .report f rest => do
    Cache.report f
    rest.run
  | .find key rest => do
    let found ← (Cache.find key).run
    (rest found).run
  | .add key etag rest => do
    let added ← (Cache.add key etag).run
    (rest added).run
  | .remove key rest => do
    let removed ← (Cache.remove key).run
    (rest removed).run

/-- The next command alone: what is left to do, and the cache afterwards. -/
def step (c : Cache) : Program α → Program α × Cache
  | .done x => (.done x, c)
  | .report f rest => (rest, (Cache.report f c).2)
  | .find key rest => (rest ((Cache.find key).run c).1, ((Cache.find key).run c).2)
  | .add key etag rest => (rest ((Cache.add key etag).run c).1, ((Cache.add key etag).run c).2)
  | .remove key rest => (rest ((Cache.remove key).run c).1, ((Cache.remove key).run c).2)

/-- Running a program is sending its next command and running what is left. -/
theorem run_step (p : Program α) (c : Cache) : (p.step c).1.run (p.step c).2 = p.run c := by
  cases p <;> rfl

theorem step_add {c : Cache} {key : String} {etag : WeakEtag}
    {rest : Except Error Bool → Program α} {added : Except Error Bool}
    (h : ((Cache.add key etag).run c).1 = added) :
    step c (.add key etag rest) = (rest added, ((Cache.add key etag).run c).2) :=
  h ▸ rfl

theorem step_remove {c : Cache} {key : String} {rest : Except Error Bool → Program α}
    {removed : Except Error Bool} (h : ((Cache.remove key).run c).1 = removed) :
    step c (.remove key rest) = (rest removed, ((Cache.remove key).run c).2) :=
  h ▸ rfl

/-! ### Programs one after the other -/

/-- Goes on with the result of a program. -/
def bind : Program α → (α → Program β) → Program β
  | .done x, f => f x
  | .report g rest, f => .report g (rest.bind f)
  | .find key rest, f => .find key fun found => (rest found).bind f
  | .add key etag rest, f => .add key etag fun added => (rest added).bind f
  | .remove key rest, f => .remove key fun removed => (rest removed).bind f

instance : Monad Program where
  pure := .done
  bind := bind

theorem run_bind (p : Program α) (f : α → Program β) :
    (p >>= f).run = p.run >>= fun x => (f x).run := by
  funext c
  show (p.bind f).run c = (f (p.run c).1).run (p.run c).2
  induction p generalizing c with
  | done x => rfl
  | report g rest ih => exact ih _
  | find key rest ih => exact ih _ _
  | add key etag rest ih => exact ih _ _
  | remove key rest ih => exact ih _ _

/-! ### Remembering a feature -/

/-- Adds an etag under both of its keys, unless one is found under the first. -/
def remembering (etag : WeakEtag) : Program (Except Error Bool) :=
  .find etag.identity fun
    | .error cause => .done (.error cause)
    | .ok (some _) => .done (.ok false)
    | .ok none => .add etag.identity etag fun
      | .error cause => .done (.error cause)
      | .ok stored => .add etag.versionKey etag fun
        | .error cause => .done (.error cause)
        | .ok linked => .done (.ok (stored && linked))

theorem run_remembering (etag : WeakEtag) :
    (remembering etag).run = (Cache.remember etag).run := by
  unfold remembering Cache.remember
  rw [run, ExceptT.run_bind]
  -- both sides go on after an answer, and give up where there is none
  refine bind_congr fun found => ?_
  rcases found with cause | _ | found
  · rfl
  · show run (.add _ _ _) = (Cache.add etag.identity etag >>= _).run
    rw [run, ExceptT.run_bind]
    refine bind_congr fun stored => ?_
    rcases stored with cause | stored
    · rfl
    · show run (.add _ _ _) = (Cache.add etag.versionKey etag >>= _).run
      rw [run, ExceptT.run_bind]
      refine bind_congr fun linked => ?_
      rcases linked with cause | linked
      · rfl
      · rfl
  · rfl

/-! ### What every command keeps -/

/-- Whatever the answer, a command leaves a store with the property where there was one. -/
structure KeptByCommands (P : Store → Prop) : Prop where
  find : ∀ (key : String) (c : Cache), P c.store → P ((Cache.find key).run c).2.store
  add : ∀ (key : String) (etag : WeakEtag) (c : Cache), P c.store →
    P ((Cache.add key etag).run c).2.store
  remove : ∀ (key : String) (c : Cache), P c.store → P ((Cache.remove key).run c).2.store

/-- What every command keeps, a program keeps. -/
theorem KeptByCommands.run {P : Store → Prop} (h : KeptByCommands P) (p : Program α) (c : Cache)
    (hc : P c.store) : P (p.run c).2.store := by
  induction p generalizing c with
  | done x => exact hc
  | report f rest ih => exact ih _ hc
  | find key rest ih => exact ih _ _ (h.find key c hc)
  | add key etag rest ih => exact ih _ _ (h.add key etag c hc)
  | remove key rest ih => exact ih _ _ (h.remove key c hc)

end Program

end FreshTag.Cache
