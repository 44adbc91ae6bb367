/-
FreshTag/Proofs/Cache/Bounded.lean

The operations on the cache inside the process, as steps of its links: what
each one answers and which links it leaves.  No such operation fails.

What is only added to a cache and removed from it takes the same steps wherever
adding and removing do (`LinkSteps`).
-/
import FreshTag.Conditional
import FreshTag.Proofs.Cache.Moves
import FreshTag.Proofs.Cache.Versions

namespace FreshTag.Cache

/-- On the links `s`, the operation answers `x` and leaves the links `t`. -/
def Takes {α : Type} (op : StateM Cache α) (s : LinkStore) (x : α) (t : LinkStore) : Prop :=
  Moves op (· = .bounded s) x (· = .bounded t)

namespace Takes

/-- The links after the operation are determined. -/
theorem store_eq {α : Type} {op : StateM Cache α} {s t : LinkStore} {x : α} (h : Takes op s x t)
    {c : Cache} (hc : c.store = .bounded s) : (op c).2.store = .bounded t :=
  (h c hc).2

/-- The answer of the operation is determined. -/
theorem answer_eq {α : Type} {op : StateM Cache α} {s t : LinkStore} {x : α} (h : Takes op s x t)
    {c : Cache} (hc : c.store = .bounded s) : (op c).1 = x :=
  (h c hc).1

theorem holds (s : LinkStore) (key : String) :
    Takes (Cache.holds key).run s (.ok (s.contains key)) s := by
  refine Moves.lookOk ?_
  rintro ⟨store, reports⟩ rfl
  exact Moves.pure _

theorem find (s : LinkStore) (key : String) :
    Takes (Cache.find key).run s (.ok (s.get? key)) s := by
  refine Moves.lookOk ?_
  rintro ⟨store, reports⟩ rfl
  exact Moves.pure _

theorem size (s : LinkStore) : Takes Cache.size s s.size s := by
  refine Moves.look ?_
  rintro ⟨store, reports⟩ rfl
  exact Moves.pure _

theorem add (s : LinkStore) (key : String) (etag : WeakEtag) :
    Takes (Cache.add key etag).run s (.ok true) (s.add key etag) := by
  rintro ⟨store, reports⟩ rfl
  exact ⟨rfl, rfl⟩

/-- Removing a key drops what is behind it, and says whether something was. -/
theorem remove (s : LinkStore) (key : String) :
    Takes (Cache.remove key).run s (.ok (s.contains key)) (s.without key) := by
  have hsome : s.contains key = (s.remove? key).isSome := by
    simp [LinkStore.remove?, LinkStore.contains, Dict.contains]
  rw [hsome]
  unfold LinkStore.without
  refine Moves.lookOk ?_
  rintro ⟨store, reports⟩ rfl
  rcases h : s.remove? key with - | t
  · simp only [h]
    exact Moves.pure _
  · simp only [h]
    exact fun _ _ => ⟨rfl, rfl⟩

/-- A strong etag is looked up by the version it decodes to. -/
theorem contains_ok (s : LinkStore) {strong : String} {etag : StrongEtag}
    (h : StrongEtag.decode strong = .ok etag) :
    Takes (Cache.contains strong).run s (.ok (s.contains etag.version)) s := by
  unfold Cache.contains
  rw [h]
  exact (holds s etag.version).bindOk fun _ hc => ⟨rfl, hc⟩

theorem contains_error (s : LinkStore) {strong : String} {cause : EtagError}
    (h : StrongEtag.decode strong = .error cause) :
    Takes (Cache.contains strong).run s (.error (.malformed cause)) s := by
  unfold Cache.contains
  rw [h]
  exact fun _ hc => ⟨rfl, hc⟩

/-- A served feature is stored under both of its keys, unless it is there. -/
theorem remember (s : LinkStore) (etag : WeakEtag) :
    Takes (Cache.remember etag).run s (.ok (s.get? etag.identity).isNone)
      (if s.get? etag.identity = none then s.addPair etag else s) := by
  unfold Cache.remember
  refine (find s etag.identity).bindOk ?_
  rcases h : s.get? etag.identity with - | found
  · exact (add s etag.identity etag).bindOk ((add _ etag.versionKey etag).bindOk (Moves.pure _))
  · exact Moves.pure _

end Takes

/-- Where a store is tied to links, adding and removing take both of them one step. -/
structure LinkSteps (R : LinkStore → Store → Prop) : Prop where
  add : ∀ s key etag, Moves (Cache.add key etag).run (R s) (.ok true) (R (s.add key etag))
  remove : ∀ s key,
    Moves (Cache.remove key).run (R s) (.ok (s.contains key)) (R (s.without key))

theorem linkSteps_bounded : LinkSteps fun s store => store = .bounded s :=
  ⟨Takes.add, Takes.remove⟩

end FreshTag.Cache
