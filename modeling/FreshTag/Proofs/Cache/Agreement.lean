/-
FreshTag/Proofs/Cache/Agreement.lean

The cache inside the process and the shared cache are the same cache, as long
as the server refuses nothing.  `Mirrors` ties the links of the one to the
keyspace of the other: the same identities are behind the same keys, and under
each identity stands the text of the etag stored there.  Every operation
answers the same on both sides and leaves them mirrored (`Agree.add`,
`Agree.remove`, ...), hence so does every sequence of operations
(`Agree.performAll`).

Only the etag behind a key may differ, where several are: the links give the
one that came last, and the server chooses any.
-/
import FreshTag.Proofs.Cache.Bounded
import FreshTag.Proofs.Cache.Scripts

namespace FreshTag.Cache

open Redis (Keyspace Yields)

/-- An etag is stored behind the key. -/
def LinkStore.Reaches (s : LinkStore) (key : String) (etag : WeakEtag) : Prop :=
  ∃ i, i ∈ s.identities key ∧ s.stored? i = some etag

/-! ### Links and keyspace -/

/-- The keyspace holds what the links hold. -/
structure Mirrors (p : KeyPrefix) (s : LinkStore) (space : Keyspace) : Prop where
  consistent : s.Consistent
  shows : Shows p space (fun key i => i ∈ s.identities key)
    fun i => (s.stored? i).map WeakEtag.text

theorem mirrors_empty (p : KeyPrefix) : Mirrors p .empty {} where
  consistent := LinkStore.consistent_empty
  shows := (shows_empty p).congr (by simp [LinkStore.identities, LinkStore.empty,
    EmptyCollection.emptyCollection]) (by simp)

namespace Mirrors

variable {p : KeyPrefix} {s : LinkStore} {space : Keyspace} (h : Mirrors p s space)

include h

theorem add (key : String) (etag : WeakEtag) :
    ∃ space', Yields (SharedStore.add p key etag) space () space' ∧
      Mirrors p (s.add key etag) space' := by
  obtain ⟨space', hrun, hshows⟩ := h.shows.add key etag
  refine ⟨space', hrun, h.consistent.add key etag, hshows.congr ?_ ?_⟩
  · intro k i
    rw [LinkStore.identities_add]
    by_cases hk : k = key
    · subst hk
      simp [mem_appendNew, or_comm]
    · simp [hk]
  · intro i
    rw [LinkStore.stored?_add]
    split <;> rfl

theorem without {key : String} {identities : List String} {space' : Keyspace}
    (hmem : ∀ i, i ∈ identities ↔ i ∈ s.identities key)
    (hshows : Shows p space' (fun k i => i ∈ s.identities k ∧ i ∉ identities)
      fun i => if i ∈ identities then none else (s.stored? i).map WeakEtag.text) :
    Mirrors p (s.without key) space' := by
  have hremoved := h.consistent.removed_without key
  refine ⟨h.consistent.without key, hshows.congr ?_ ?_⟩
  · intro k i
    simp [hremoved.identities, hmem]
  · intro i
    simp only [hmem, h.consistent.stored?_without]
    split <;> rfl

/-- What the server says of a key is what the links say of it. -/
theorem found_eq {key : String} {found : Bool} (hfound : found = true ↔ ∃ i, i ∈ s.identities key) :
    found = s.contains key := by
  rw [Bool.eq_iff_iff, hfound, h.consistent.contains_iff_exists]

theorem remove (key : String) :
    ∃ space', Yields (SharedStore.remove p key) space (s.contains key) space' ∧
      Mirrors p (s.without key) space' := by
  obtain ⟨found, space', identities, hrun, hmem, hfound, hshows⟩ := h.shows.remove key
  rw [h.found_eq hfound] at hrun
  exact ⟨space', hrun, h.without hmem hshows⟩

theorem contains (key : String) :
    Yields (SharedStore.contains p key) space (s.contains key) space := by
  obtain ⟨found, hrun, hfound⟩ := h.shows.contains key
  rw [h.found_eq hfound] at hrun
  exact hrun

theorem size : Yields (SharedStore.size p) space s.size space := by
  obtain ⟨identities, hrun, hnodup, hmem⟩ := h.shows.size
  have hkeys : ∀ i, i ∈ identities ↔ i ∈ s.values.keys := by
    intro i
    rw [hmem, Dict.mem_keys, Dict.contains_eq_true_iff]
    simp [LinkStore.stored?]
  -- the two lists name the same identities, each of them once
  have hlength : identities.length = s.size := by
    rw [((List.perm_ext_iff_of_nodup hnodup s.values.nodup).mpr hkeys).length_eq]
    exact Dict.length_keys s.values
  exact hlength ▸ hrun

theorem reaches {key i : String} (hi : i ∈ s.identities key) :
    ∃ etag, s.Reaches key etag ∧ (s.stored? i).map WeakEtag.text = some etag.text := by
  obtain ⟨stored, hst, -⟩ := h.consistent.stored_of_mem hi
  have hstored : s.stored? i = some stored.etag := LinkStore.stored?_eq_some_iff.mpr ⟨_, hst, rfl⟩
  exact ⟨stored.etag, ⟨i, hi, hstored⟩, by rw [hstored]; rfl⟩

/-- The server reads the text of an etag behind the key, if there is one. -/
theorem getText (key : String) :
    ∃ answer, Yields (SharedStore.getText p key) space answer space ∧
      (answer = none ↔ s.get? key = none) ∧
      ∀ text, answer = some text → ∃ etag, s.Reaches key etag ∧ text = etag.text := by
  have htext : ∀ i, i ∈ s.identities key → ∃ t, (s.stored? i).map WeakEtag.text = some t := by
    intro i hi
    obtain ⟨etag, -, ht⟩ := h.reaches hi
    exact ⟨_, ht⟩
  obtain ⟨answer, hrun, hnone, hsome⟩ := h.shows.getText key htext
  refine ⟨answer, hrun, ?_, ?_⟩
  · rw [hnone, h.consistent.get?_eq_none_iff, List.eq_nil_iff_forall_not_mem]
  · intro text ht
    obtain ⟨i, hi, htext'⟩ := hsome text ht
    obtain ⟨etag, hreaches, hetag⟩ := h.reaches hi
    exact ⟨etag, hreaches, Option.some.inj (htext'.symm.trans hetag)⟩

/-- Whichever identity the server chooses behind a key, the text there is that of an etag that the
links reach. -/
theorem chosen {key i : String} {members : List String}
    (hmembers : Redis.membersOf space (p.lookup key) = some members) (hi : i ∈ members) :
    ∃ etag, s.Reaches key etag ∧ space.get? (p.value i) = some (.text etag.text) := by
  obtain ⟨ms, hms, -, hmem⟩ := h.shows.lookup key
  rw [Redis.membersOf_eq hms] at hmembers
  cases hmembers
  obtain ⟨etag, hreaches, hetag⟩ := h.reaches ((hmem i).mp hi)
  refine ⟨etag, hreaches, ?_⟩
  rw [h.shows.value, hetag]
  rfl

end Mirrors

/-! ### Operations on the shared cache -/

/-- The store is shared, on a server with the keyspace that refuses nothing. -/
def OnServer (p : KeyPrefix) (space : Keyspace) (store : Store) : Prop :=
  ∃ received, store = .shared p { space := space, received := received }

/-- On the keyspace `space`, the operation answers `x` and leaves the keyspace `space'`. -/
def Serves {α : Type} (p : KeyPrefix) (op : StateM Cache α) (space : Keyspace) (x : α)
    (space' : Keyspace) : Prop :=
  Moves op (OnServer p space) x (OnServer p space')

/-- What `find` answers where it read a text. -/
def decoded (text : String) : Except Error (Option WeakEtag) :=
  match WeakEtag.parse text with
  | .ok etag => .ok (some etag)
  | .error cause => .error (.undecodable cause)

namespace Serves

variable {p : KeyPrefix} {space space' : Keyspace}

theorem onServer {α : Type} {run : Redis.Run α} {x : α} (h : Yields run space x space')
    (received : Nat) {P : Store → Prop} :
    Moves (Cache.onServer p { space := space, received := received } run).run P (.ok x)
      (OnServer p space') := by
  intro c _
  obtain ⟨received', hrun⟩ := h received
  have heq : ((Cache.onServer p { space := space, received := received } run).run c) =
      (.ok x, { c with store := .shared p { space := space', received := received' } }) := by
    have hrun' : run { space := space, received := received } = _ := hrun
    show Cache.onServer p _ run c = _
    unfold Cache.onServer
    rw [hrun']
  rw [heq]
  exact ⟨rfl, received', rfl⟩

theorem holds {key : String} {found : Bool}
    (h : Yields (SharedStore.contains p key) space found space') :
    Serves p (Cache.holds key).run space (.ok found) space' := by
  refine Moves.lookOk ?_
  rintro ⟨store, reports⟩ ⟨received, rfl⟩
  exact onServer h received

theorem add {key : String} {etag : WeakEtag}
    (h : Yields (SharedStore.add p key etag) space () space') :
    Serves p (Cache.add key etag).run space (.ok true) space' := by
  refine Moves.lookOk ?_
  rintro ⟨store, reports⟩ ⟨received, rfl⟩
  exact (onServer h received).bindOk ((Moves.liftReport _).bindOk (Moves.pure _))

theorem remove {key : String} {found : Bool}
    (h : Yields (SharedStore.remove p key) space found space') :
    Serves p (Cache.remove key).run space (.ok found) space' := by
  refine Moves.lookOk ?_
  rintro ⟨store, reports⟩ ⟨received, rfl⟩
  exact onServer h received

theorem size {n : Nat} (h : Yields (SharedStore.size p) space n space') :
    Serves p Cache.size space n space' := by
  refine Moves.look ?_
  rintro ⟨store, reports⟩ ⟨received, rfl⟩
  exact (onServer h received).bind (Moves.pure n)

theorem find_none {key : String} (h : Yields (SharedStore.getText p key) space none space') :
    Serves p (Cache.find key).run space (.ok none) space' := by
  refine Moves.lookOk ?_
  rintro ⟨store, reports⟩ ⟨received, rfl⟩
  exact (onServer h received).bindOk (Moves.pure _)

theorem find_some {key text : String}
    (h : Yields (SharedStore.getText p key) space (some text) space') :
    Serves p (Cache.find key).run space (decoded text) space' := by
  refine Moves.lookOk ?_
  rintro ⟨store, reports⟩ ⟨received, rfl⟩
  refine (onServer h received).bindOk ?_
  unfold decoded
  rcases hparse : WeakEtag.parse text with cause | etag
  · simp only [hparse]
    exact fun _ hc => ⟨rfl, hc⟩
  · simp only [hparse]
    exact Moves.pure _

end Serves

/-! ### Sequences of operations -/

/-- An operation on a cache. -/
inductive Request where
  | add (key : String) (etag : WeakEtag)
  | remove (key : String)
  | holds (key : String)
  | size
  | find (key : String)

/-- The cache after the operation. -/
def Request.perform (c : Cache) : Request → Cache
  | .add key etag => ((Cache.add key etag).run c).2
  | .remove key => ((Cache.remove key).run c).2
  | .holds key => ((Cache.holds key).run c).2
  | .size => (Cache.size c).2
  | .find key => ((Cache.find key).run c).2

/-- The cache after some operations. -/
def performAll (requests : List Request) (c : Cache) : Cache :=
  requests.foldl Request.perform c

/-- One cache is inside the process, the other one shared, and they hold the same. -/
def Agree (p : KeyPrefix) (c d : Cache) : Prop :=
  ∃ s space, c.store = .bounded s ∧ OnServer p space d.store ∧ Mirrors p s space

namespace Agree

variable {p : KeyPrefix} {c d : Cache}

theorem of_steps {α : Type} {op : StateM Cache α} {s t : LinkStore} {space space' : Keyspace}
    {x : α} (hc : c.store = .bounded s) (hd : OnServer p space d.store) (htakes : Takes op s x t)
    (hserves : Serves p op space x space') (hmirrors : Mirrors p t space') :
    (op c).1 = (op d).1 ∧ Agree p (op c).2 (op d).2 := by
  obtain ⟨hx, ht⟩ := htakes c hc
  obtain ⟨hy, hspace⟩ := hserves d hd
  exact ⟨hx.trans hy.symm, t, space', ht, hspace, hmirrors⟩

variable (h : Agree p c d)

include h

theorem add (key : String) (etag : WeakEtag) :
    ((Cache.add key etag).run c).1 = ((Cache.add key etag).run d).1 ∧
      Agree p ((Cache.add key etag).run c).2 ((Cache.add key etag).run d).2 := by
  obtain ⟨s, space, hc, hd, hm⟩ := h
  obtain ⟨space', hrun, hm'⟩ := hm.add key etag
  exact of_steps hc hd (.add s key etag) (.add hrun) hm'

theorem remove (key : String) :
    ((Cache.remove key).run c).1 = ((Cache.remove key).run d).1 ∧
      Agree p ((Cache.remove key).run c).2 ((Cache.remove key).run d).2 := by
  obtain ⟨s, space, hc, hd, hm⟩ := h
  obtain ⟨space', hrun, hm'⟩ := hm.remove key
  exact of_steps hc hd (.remove s key) (.remove hrun) hm'

theorem holds (key : String) :
    ((Cache.holds key).run c).1 = ((Cache.holds key).run d).1 ∧
      Agree p ((Cache.holds key).run c).2 ((Cache.holds key).run d).2 := by
  obtain ⟨s, space, hc, hd, hm⟩ := h
  exact of_steps hc hd (.holds s key) (.holds (hm.contains key)) hm

theorem size : (Cache.size c).1 = (Cache.size d).1 ∧ Agree p (Cache.size c).2 (Cache.size d).2 := by
  obtain ⟨s, space, hc, hd, hm⟩ := h
  exact of_steps hc hd (.size s) (.size hm.size) hm

/-- An etag is found on both sides or on none.  What the shared cache finds is the text of an etag
behind the key, as far as it can be decoded. -/
theorem find (key : String) :
    ((((Cache.find key).run c).1 = .ok none ∧ ((Cache.find key).run d).1 = .ok none) ∨
      ∃ s found etag, c.store = .bounded s ∧ ((Cache.find key).run c).1 = .ok (some found) ∧
        s.Reaches key etag ∧ ((Cache.find key).run d).1 = decoded etag.text) ∧
      Agree p ((Cache.find key).run c).2 ((Cache.find key).run d).2 := by
  obtain ⟨s, space, hc, hd, hm⟩ := h
  obtain ⟨answer, hrun, hnone, hsome⟩ := hm.getText key
  obtain ⟨hx, hs⟩ := Takes.find s key c hc
  -- whether the server has a text decides which of the two it is
  rcases answer with - | text
  · obtain ⟨hy, hspace⟩ := Serves.find_none hrun d hd
    rw [hnone.mp rfl] at hx
    exact ⟨Or.inl ⟨hx, hy⟩, s, space, hs, hspace, hm⟩
  · obtain ⟨hy, hspace⟩ := Serves.find_some hrun d hd
    obtain ⟨etag, hreaches, rfl⟩ := hsome text rfl
    obtain ⟨found, hfound⟩ : ∃ found, s.get? key = some found := by
      rw [← Option.ne_none_iff_exists']
      exact fun hget => absurd (hnone.mpr hget) (by simp)
    rw [hfound] at hx
    exact ⟨Or.inr ⟨s, found, etag, hc, hx, hreaches, hy⟩, s, space, hs, hspace, hm⟩

theorem perform (r : Request) : Agree p (r.perform c) (r.perform d) := by
  cases r with
  | add key etag => exact (h.add key etag).2
  | remove key => exact (h.remove key).2
  | holds key => exact (h.holds key).2
  | size => exact h.size.2
  | find key => exact (h.find key).2

end Agree

theorem Agree.performAll {p : KeyPrefix} {c d : Cache} (h : Agree p c d) (requests : List Request) :
    Agree p (performAll requests c) (performAll requests d) := by
  unfold Cache.performAll
  induction requests generalizing c d with
  | nil => exact h
  | cons r requests ih => exact ih (h.perform r)

theorem agree_empty (p : KeyPrefix) (reports reports' : Telemetry) (received : Nat) :
    Agree p { store := .bounded .empty, telemetry := reports }
      { store := .shared p { received := received }, telemetry := reports' } :=
  ⟨.empty, {}, rfl, ⟨received, rfl⟩, mirrors_empty p⟩

/-- After any sequence of operations, from empty, the cache inside the process and the shared cache
give the same answer to every next operation.  Where they find an etag, the shared cache finds the
text of one that the other reaches by the key, whichever identity behind it the server chooses. -/
theorem caches_agree (p : KeyPrefix) (reports reports' : Telemetry) (received : Nat)
    (requests : List Request) :
    ∃ c d, c = performAll requests { store := .bounded .empty, telemetry := reports } ∧
      d = performAll requests
        { store := .shared p { received := received }, telemetry := reports' } ∧
      (∀ key etag, ((add key etag).run c).1 = ((add key etag).run d).1) ∧
      (∀ key, ((remove key).run c).1 = ((remove key).run d).1) ∧
      (∀ key, ((holds key).run c).1 = ((holds key).run d).1) ∧
      (size c).1 = (size d).1 ∧
      (∀ key, (((find key).run c).1 = .ok none ∧ ((find key).run d).1 = .ok none) ∨
        ∃ s found etag, c.store = .bounded s ∧ ((find key).run c).1 = .ok (some found) ∧
          s.Reaches key etag ∧ ((find key).run d).1 = decoded etag.text) ∧
      ∃ s server, c.store = .bounded s ∧ d.store = .shared p server ∧
        ∀ key members i, Redis.membersOf server.space (p.lookup key) = some members →
          i ∈ members → ∃ etag, s.Reaches key etag ∧
            server.space.get? (p.value i) = some (.text etag.text) := by
  have h := (agree_empty p reports reports' received).performAll requests
  refine ⟨_, _, rfl, rfl, fun key etag => (h.add key etag).1, fun key => (h.remove key).1,
    fun key => (h.holds key).1, h.size.1, fun key => (h.find key).1, ?_⟩
  obtain ⟨s, space, hc, ⟨received', hd⟩, hm⟩ := h
  exact ⟨s, _, hc, hd, fun key members i hmembers hi => hm.chosen hmembers hi⟩

end FreshTag.Cache
