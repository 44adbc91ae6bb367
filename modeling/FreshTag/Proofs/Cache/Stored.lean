/-
FreshTag/Proofs/Cache/Stored.lean

What is in a cache, of whichever kind: the identities that a key leads to
(`Store.Leads`) and the etags that are stored under them (`Store.Stores`).

A cache inside the process and a cache on a server that refuses nothing both
carry links (`Store.Carries`), and an operation answers by the links and takes
them one step, so that what is true of links is true of either cache.
-/
import FreshTag.Proofs.Cache.Agreement
import FreshTag.Proofs.Etag.Printed

namespace FreshTag.Cache

open Redis (Keyspace)

/-- What is stored after a removal was stored before, and the same keys lead to it. -/
theorem LinkStore.Consistent.of_stored?_without {s : LinkStore} (hs : s.Consistent)
    {key i : String} {etag : WeakEtag} (h : (s.without key).stored? i = some etag) :
    s.stored? i = some etag ∧ (s.without key).keysOf i = s.keysOf i := by
  have hremoved := hs.removed_without key
  obtain ⟨stored, hst, rfl⟩ := stored?_eq_some_iff.mp h
  obtain ⟨hi, hst⟩ := hremoved.get?_eq_some hst
  exact ⟨stored?_eq_some_iff.mpr ⟨stored, hst, rfl⟩, (hremoved.keysOf i).trans (if_neg hi)⟩

namespace Store

/-- The identity is behind the key. -/
def Leads : Store → String → String → Prop
  | .disabled, _, _ => False
  | .bounded links, key, i => i ∈ links.identities key
  | .shared p server, key, i =>
    ∃ ms, server.space.get? (p.lookup key) = some (.members ms) ∧ i ∈ ms

/-- The etag is stored under the identity; on a server, its text is. -/
def Stores : Store → String → WeakEtag → Prop
  | .disabled, _, _ => False
  | .bounded links, i, etag => links.stored? i = some etag
  | .shared p server, i, etag => server.space.get? (p.value i) = some (.text etag.text)

/-- The store has just been opened, if it is on a server, on one that refuses nothing. -/
inductive Opened : Store → Prop
  | bounded : Opened (.bounded .empty)
  | shared (p : KeyPrefix) (received : Nat) : Opened (.shared p { received := received })

/-- The links are in the store, inside the process or on a server that refuses nothing. -/
inductive Carries (s : LinkStore) : Store → Prop
  | bounded : s.Consistent → Carries s (.bounded s)
  | shared {p : KeyPrefix} {space : Keyspace} (received : Nat) :
    Mirrors p s space → Carries s (.shared p { space := space, received := received })

theorem Opened.carries {store : Store} (h : store.Opened) : store.Carries .empty := by
  cases h with
  | bounded => exact .bounded LinkStore.consistent_empty
  | shared p received => exact .shared received (mirrors_empty p)

namespace Carries

variable {s t : LinkStore} {store : Store}

theorem consistent (h : store.Carries s) : s.Consistent := by
  cases h with
  | bounded h => exact h
  | shared _ h => exact h.consistent

theorem leads_iff (h : store.Carries s) {key i : String} :
    store.Leads key i ↔ i ∈ s.identities key := by
  cases h with
  | bounded => exact Iff.rfl
  | @shared p space _ h =>
    obtain ⟨ms, hms, -, hmem⟩ := h.shows.lookup key
    refine Iff.trans ?_ (hmem i)
    show (∃ ms', space.get? (p.lookup key) = some (.members ms') ∧ i ∈ ms') ↔ i ∈ ms
    rw [hms]
    by_cases hnil : ms = [] <;> simp [hnil]

/-- What is stored is, up to its text, what the links store. -/
theorem exists_stored? (h : store.Carries s) {i : String} {etag : WeakEtag}
    (hstored : store.Stores i etag) :
    ∃ e, s.stored? i = some e ∧ e.text = etag.text := by
  cases h with
  | bounded => exact ⟨etag, hstored, rfl⟩
  | @shared p space _ h =>
    have hvalue : space.get? (p.value i) = some (.text etag.text) := hstored
    rw [h.shows.value] at hvalue
    simpa using hvalue

/-! ### Operations -/

/-- What an operation does on either side, it does to the links that a store carries. -/
theorem of_steps {α : Type} {op : StateM Cache α} {x : α}
    (htakes : Takes op s x t) (ht : s.Consistent → t.Consistent)
    (hserves : ∀ {p space}, Mirrors p s space → ∃ space', Serves p op space x space' ∧
      Mirrors p t space') : Moves op (Carries s) x (Carries t) := by
  intro c hc
  generalize hstore : c.store = store at hc
  -- either way the operation answers `x`, by the links or by the keyspace that mirrors them
  cases hc with
  | bounded h =>
    obtain ⟨hx, hafter⟩ := htakes c hstore
    exact ⟨hx, hafter ▸ .bounded (ht h)⟩
  | shared received h =>
    obtain ⟨space', hop, hm⟩ := hserves h
    obtain ⟨hx, received', hafter⟩ := hop c ⟨received, hstore⟩
    exact ⟨hx, hafter ▸ .shared received' hm⟩

theorem add (key : String) (etag : WeakEtag) :
    Moves (Cache.add key etag).run (Carries s) (.ok true) (Carries (s.add key etag)) := by
  refine of_steps (.add s key etag) (·.add key etag) fun h => ?_
  obtain ⟨space', hrun, hm⟩ := h.add key etag
  exact ⟨space', .add hrun, hm⟩

theorem remove (key : String) :
    Moves (Cache.remove key).run (Carries s) (.ok (s.contains key)) (Carries (s.without key)) := by
  refine of_steps (.remove s key) (·.without key) fun h => ?_
  obtain ⟨space', hrun, hm⟩ := h.remove key
  exact ⟨space', .remove hrun, hm⟩

theorem steps : LinkSteps fun s store => store.Carries s :=
  ⟨fun _ key etag => add key etag, fun _ key => remove key⟩

theorem holds (key : String) :
    Moves (Cache.holds key).run (Carries s) (.ok (s.contains key)) (Carries s) :=
  of_steps (.holds s key) id fun h => ⟨_, .holds (h.contains key), h⟩

/-- Looking for an etag leaves the links as they are, whatever it finds. -/
theorem find (key : String) {c : Cache} (hc : c.store.Carries s) :
    ((Cache.find key).run c).2.store.Carries s := by
  generalize hstore : c.store = store at hc
  cases hc with
  | bounded h => exact (Takes.find s key).store_eq hstore ▸ .bounded h
  | shared received h =>
    obtain ⟨answer, hrun, -, -⟩ := h.getText key
    rcases answer with - | text
    · obtain ⟨-, received', hafter⟩ := Serves.find_none hrun c ⟨received, hstore⟩
      exact hafter ▸ .shared received' h
    · obtain ⟨-, received', hafter⟩ := Serves.find_some hrun c ⟨received, hstore⟩
      exact hafter ▸ .shared received' h

/-- A key that leads to something is found, removing it says so, and what it led to is gone. -/
theorem reaches {c : Cache} (hc : c.store.Carries s) {key i : String} (hi : i ∈ s.identities key) :
    ((Cache.holds key).run c).1 = .ok true ∧ ((Cache.remove key).run c).1 = .ok true ∧
      ∀ etag, ¬ ((Cache.remove key).run c).2.store.Stores i etag := by
  have hcontains : s.contains key = true := hc.consistent.contains_iff_exists.mpr ⟨i, hi⟩
  obtain ⟨hremoved, hafter⟩ := remove key c hc
  refine ⟨hcontains ▸ (holds key c hc).1, hcontains ▸ hremoved, fun etag hst => ?_⟩
  obtain ⟨e, he, -⟩ := hafter.exists_stored? hst
  rw [hc.consistent.stored?_without, if_pos hi] at he
  cases he

end Carries

end Store

end FreshTag.Cache
