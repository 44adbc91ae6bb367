/-
FreshTag/Proofs/Cache/Moves.lean

Steps of a cache.  `Moves op P x Q` says that the operation answers `x` and
leads from a store with the property `P` to one with the property `Q`, whatever
was reported before.  Steps compose along `bind`, so that a program over the
cache is read off its operations.
-/
import FreshTag.Cache.Basic

namespace FreshTag.Cache

/-- Where the store has the property `P`, the operation answers `x` and leaves one with `Q`. -/
def Moves {α : Type} (op : StateM Cache α) (P : Store → Prop) (x : α) (Q : Store → Prop) : Prop :=
  ∀ c : Cache, P c.store → (op c).1 = x ∧ Q (op c).2.store

/-- What follows an operation begins where the operation ends. -/
theorem bind_of_eq {α β : Type} {op : StateM Cache α} {f : α → StateM Cache β} {x : α}
    {c after : Cache} (h : op c = (x, after)) : (op >>= f) c = f x after := by
  show f (op c).1 (op c).2 = _
  rw [h]

namespace Moves

variable {α β : Type} {P Q R : Store → Prop}

theorem pure (x : α) : Moves (Pure.pure x) P x P :=
  fun _ h => ⟨rfl, h⟩

theorem bind {op : StateM Cache α} {f : α → StateM Cache β} {x : α} {y : β}
    (h : Moves op P x Q) (hf : Moves (f x) Q y R) : Moves (op >>= f) P y R := by
  intro c hc
  obtain ⟨hx, hq⟩ := h c hc
  show (f (op c).1 (op c).2).1 = y ∧ R (f (op c).1 (op c).2).2.store
  rw [hx]
  exact hf _ hq

/-- An operation that may fail goes on where it succeeded. -/
theorem bindOk {op : Op α} {f : α → Op β} {x : α} {y : Except Error β}
    (h : Moves op.run P (.ok x) Q) (hf : Moves (f x).run Q y R) :
    Moves (op >>= f).run P y R := by
  rw [ExceptT.run_bind]
  exact h.bind hf

/-- An operation that begins by looking at the cache. -/
theorem look {f : Cache → StateM Cache α} {y : α}
    (h : ∀ c : Cache, P c.store → Moves (f c) P y Q) : Moves (get >>= f) P y Q :=
  fun c hc => h c hc c hc

theorem lookOk {f : Cache → Op α} {y : Except Error α}
    (h : ∀ c : Cache, P c.store → Moves (f c).run P y Q) : Moves (get >>= f).run P y Q :=
  fun c hc => h c hc c hc

/-- Reports leave the store alone. -/
theorem report (f : Telemetry → Telemetry) : Moves (Cache.report f) P () P :=
  fun _ h => ⟨rfl, h⟩

theorem log (source : Log.Source) (level : Log.Level) (message : String)
    (fields : List (String × Json.Value)) :
    Moves (Cache.log source level message fields) P () P :=
  report _

/-- A report on the way of an operation that may fail. -/
theorem liftReport (f : Telemetry → Telemetry) :
    Moves (liftM (Cache.report f) : Op Unit).run P (.ok ()) P :=
  fun _ h => ⟨rfl, h⟩

end Moves

end FreshTag.Cache
