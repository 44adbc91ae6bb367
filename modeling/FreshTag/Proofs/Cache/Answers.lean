/-
FreshTag/Proofs/Cache/Answers.lean

What the answer of an operation says about the store, of whichever kind, and
whatever a server refuses.  Where an etag was added, the key leads to its
identity (`add_answers`), and does so whatever is added later (`leads_add`);
where a key leads to something, no answer says that it does not
(`found_of_leads`).  As long as nothing is refused the answer is what the store
has (`holds_answer`), and operations keep it so (`Store.keptByCommands_working`).
-/
import FreshTag.Proofs.Cache.Refusals
import FreshTag.Proofs.Cache.Stored

namespace FreshTag.Cache

open Redis (Keyspace Run Server Yields)

variable {α β : Type} {c : Cache}

/-! ### One operation after another -/

/-- An operation answers only if both of its parts do. -/
theorem bind_answers {op : Op α} {f : α → Op β} {y : β}
    (h : ((op >>= f).run c).1 = .ok y) :
    ∃ x, (op.run c).1 = .ok x ∧ ((f x).run (op.run c).2).1 = .ok y ∧
      ((op >>= f).run c).2 = ((f x).run (op.run c).2).2 := by
  have hrun : (op >>= f).run c = ExceptT.bindCont f (op.run c).1 (op.run c).2 := rfl
  rw [hrun] at h ⊢
  rcases hop : op.run c with ⟨cause | x, after⟩
  · rw [hop] at h
    cases h
  · rw [hop] at h
    exact ⟨x, rfl, h, rfl⟩

/-- What follows an operation and answers what the operation answered does not change the answer. -/
theorem answer_bind {op : Op α} {f : α → Op α}
    (hf : ∀ x c, ((f x).run c).1 = .ok x) (c : Cache) :
    ((op >>= f).run c).1 = (op.run c).1 := by
  show (ExceptT.bindCont f (op.run c).1 (op.run c).2).1 = _
  rcases op.run c with ⟨cause | x, after⟩
  · rfl
  · exact hf x after

/-! ### Adding and asking -/

/-- Where an etag was added, the key leads to its identity, and it is stored there. -/
theorem add_answers {key : String} {etag : WeakEtag}
    (h : ((Cache.add key etag).run c).1 = .ok true) :
    ((Cache.add key etag).run c).2.store.Leads key etag.identity ∧
      ((Cache.add key etag).run c).2.store.Stores etag.identity etag := by
  rcases hstore : c.store with - | s | ⟨p, server⟩
  · obtain ⟨store, reports⟩ := c
    obtain rfl : store = .disabled := hstore
    cases h
  · rw [(Takes.add s key etag).store_eq hstore]
    refine ⟨?_, ?_⟩
    · show etag.identity ∈ (s.add key etag).identities key
      rw [LinkStore.identities_add, if_pos rfl]
      exact mem_appendNew.mpr (Or.inl rfl)
    · show (s.add key etag).stored? etag.identity = some etag
      rw [LinkStore.stored?_add, if_pos rfl]
  · -- on a server the answer says that the script succeeded
    obtain ⟨hafter, hanswer⟩ := add_on_shared hstore key etag
    rw [hafter]
    exact SharedStore.add_succeeds (Prod.ext (hanswer true h).1 rfl)

/-- What a key leads to stays through every command of the script that adds an etag. -/
theorem keeps_link (p : KeyPrefix) (k i key : String) (etag : WeakEtag) :
    Redis.Keeps (fun space => ∃ ms, space.get? (p.lookup k) = some (.members ms) ∧ i ∈ ms)
      (SharedStore.add p key etag) := by
  refine keeps_add (fun key member => .send ?_) (fun j text => .send ?_) key etag
  · rintro space x space' ⟨ms, hms, hi⟩ hact
    obtain ⟨ms', hms', heq⟩ := Option.map_eq_some_iff.mp hact
    rw [← (Prod.mk.inj heq).2]
    -- a member may be added to the set itself, and then the old ones stay
    by_cases hk : p.lookup k = key
    · subst hk
      obtain rfl : ms = ms' := by simpa [Redis.membersOf, hms] using hms'
      have hmem : i ∈ Redis.insertSorted member ms := Redis.mem_insertSorted.mpr (Or.inr hi)
      refine ⟨_, ?_, hmem⟩
      rw [Redis.get?_withMembers, if_pos rfl, if_neg (List.ne_nil_of_mem hmem)]
    · exact ⟨ms, by rw [Redis.get?_withMembers, if_neg hk, hms], hi⟩
  · rintro space x space' ⟨ms, hms, hi⟩ hact
    rw [← (Prod.mk.inj (Option.some.inj hact)).2]
    exact ⟨ms, by rw [Dict.get?_set, if_neg (p.lookup_ne_value k j), hms], hi⟩

/-- Adding takes no link away, also where it fails. -/
theorem leads_add {k i : String} (hleads : c.store.Leads k i) (key : String) (etag : WeakEtag) :
    ((Cache.add key etag).run c).2.store.Leads k i := by
  rcases hstore : c.store with - | s | ⟨p, server⟩
  · rw [hstore] at hleads
    exact hleads.elim
  · rw [hstore] at hleads
    rw [(Takes.add s key etag).store_eq hstore]
    show i ∈ (s.add key etag).identities k
    rw [LinkStore.identities_add]
    split
    · next hk =>
      subst hk
      exact mem_appendNew.mpr (Or.inr hleads)
    · exact hleads
  · rw [hstore] at hleads
    rw [(add_on_shared hstore key etag).1]
    exact (keeps_link p k i key etag server hleads).1

/-- A strong etag is looked up by the version that it decodes to. -/
theorem contains_eq_holds {strong : String} {etag : StrongEtag}
    (h : StrongEtag.decode strong = .ok etag) (c : Cache) :
    ((Cache.contains strong).run c).1 = ((Cache.holds etag.version).run c).1 := by
  unfold Cache.contains
  rw [h]
  exact answer_bind (fun _ _ => rfl) c

/-- What is no strong etag is refused as malformed. -/
theorem contains_malformed {strong : String} {cause : EtagError}
    (h : StrongEtag.decode strong = .error cause) (c : Cache) :
    ((Cache.contains strong).run c).1 = .error (.malformed cause) := by
  unfold Cache.contains
  rw [h]
  rfl

/-! ### Stores on which nothing is refused -/

namespace Store

/-- Something is behind the key. -/
def has : Store → String → Bool
  | .disabled, _ => false
  | .bounded links, key => links.contains key
  | .shared p server, key => server.space.contains (p.lookup key)

/-- No command is refused. -/
def Working : Store → Prop
  | .shared _ server => server.refuses = fun _ _ => false
  | _ => True

theorem On.working {store : Store} (h : store.On p Q fun _ _ => false) : store.Working := by
  obtain ⟨server, rfl, -, hrefuses⟩ := h
  exact hrefuses

/-- A step from one store to another one of its kind keeps it working, if it does so on servers. -/
theorem Working.step {store after : Store} (h : store.Working)
    (hdisabled : store = .disabled → after = .disabled)
    (hbounded : ∀ s, store = .bounded s → ∃ t, after = .bounded t)
    (hshared : ∀ p, store.On p (fun _ => True) (fun _ _ => false) →
      after.On p (fun _ => True) fun _ _ => false) : after.Working := by
  cases store with
  | disabled =>
    rw [hdisabled rfl]
    trivial
  | bounded s =>
    obtain ⟨t, rfl⟩ := hbounded s rfl
    trivial
  | shared p server => exact (hshared p ⟨server, rfl, trivial, h⟩).working

theorem keptByCommands_working : Program.KeptByCommands Working := by
  have hshared := fun p => keptByCommands_on (stable_true p) fun _ _ => false
  refine ⟨fun key c hc => ?_, fun key etag c hc => ?_, fun key c hc => ?_⟩
  · refine hc.step (fun hstore => ?_) (fun s hstore => ?_) fun p => (hshared p).find key c
    · rcases c with ⟨store, reports⟩
      cases hstore
      rfl
    · exact ⟨_, (Takes.find s key).store_eq hstore⟩
  · refine hc.step (fun hstore => ?_) (fun s hstore => ?_) fun p => (hshared p).add key etag c
    · rcases c with ⟨store, reports⟩
      cases hstore
      rfl
    · exact ⟨_, (Takes.add s key etag).store_eq hstore⟩
  · refine hc.step (fun hstore => ?_) (fun s hstore => ?_) fun p => (hshared p).remove key c
    · rcases c with ⟨store, reports⟩
      cases hstore
      rfl
    · exact ⟨_, (Takes.remove s key).store_eq hstore⟩

end Store

/-- Where nothing is refused, the answer is whether something is behind the key. -/
theorem holds_answer {c : Cache} (hworking : c.store.Working) (key : String) :
    ((Cache.holds key).run c).1 = .ok (c.store.has key) := by
  rcases hstore : c.store with - | s | ⟨p, ⟨space, received, refuses⟩⟩
  · obtain ⟨store, reports⟩ := c
    obtain rfl : store = .disabled := hstore
    rfl
  · exact (Takes.holds s key).answer_eq hstore
  · rw [hstore] at hworking
    obtain rfl : refuses = fun _ _ => false := hworking
    have hfound : Yields (SharedStore.contains p key) space
        (space.contains (p.lookup key)) space := (Yields.idle .connect space).bind (.send rfl)
    exact (Serves.holds hfound c ⟨received, hstore⟩).1

theorem Store.has_of_leads {store : Store} {key i : String} (h : store.Leads key i) :
    store.has key = true := by
  rcases store with - | s | ⟨p, server⟩
  · exact h.elim
  · have hmem : i ∈ (s.index.get? key).getD [] := h
    rcases hget : s.index.get? key with - | linked
    · simp [hget] at hmem
    · simp [Store.has, LinkStore.contains, Dict.contains, hget]
  · obtain ⟨ms, hms, -⟩ := h
    simp [Store.has, Dict.contains, hms]

/-- Where nothing is refused, a key that leads to something is found. -/
theorem holds_of_leads {key i : String} (hworking : c.store.Working)
    (hleads : c.store.Leads key i) : ((Cache.holds key).run c).1 = .ok true := by
  rw [holds_answer hworking, Store.has_of_leads hleads]

/-- Where a key leads to something, no answer says that it does not. -/
theorem found_of_leads {key i : String} (hleads : c.store.Leads key i) {found : Bool}
    (h : ((Cache.holds key).run c).1 = .ok found) : found = true := by
  rcases c with ⟨- | s | ⟨p, server⟩, reports⟩
  · exact hleads.elim
  · have hholds := holds_of_leads (c := ⟨.bounded s, reports⟩) trivial hleads
    exact (Except.ok.inj (hholds.symm.trans h)).symm
  · have hanswer := (onServer_bind p server (SharedStore.contains p key) pure (fun _ _ => rfl)
      ⟨.shared p server, reports⟩).2 found
    rw [bind_pure] at hanswer
    obtain ⟨x, c', hrun, hx⟩ := hanswer h
    obtain rfl : x = found := Except.ok.inj hx
    obtain ⟨⟨⟩, mid, hconnect, hexists⟩ := Redis.bind_succeeds (Prod.ext hrun rfl)
    have hspace : mid.space = server.space := Redis.idle_succeeds hconnect
    have hfound := (Prod.mk.inj (Option.some.inj (Redis.send_succeeds hexists))).1
    obtain ⟨ms, hms, -⟩ := hleads
    rw [← hfound, hspace, Dict.contains, hms]
    rfl

end FreshTag.Cache
