/-
FreshTag/Proofs/Cache/Refusals.lean

The shared cache on a server that may refuse any command.  A script ends at the
first command that fails and keeps what the ones before it did, so the links
may be left half done.  What holds all the same is whatever the single writes
of a script keep (`Stable`): no operation takes it away, and the server goes on
refusing what it refuses (`Store.keptByCommands_on`).  And a script that
succeeds has sent all its commands (`SharedStore.add_succeeds`).
-/
import FreshTag.Proofs.Cache.Programs
import FreshTag.Proofs.Cache.Scripts

namespace FreshTag

namespace Redis

variable {α β : Type}

/-! ### Commands that succeed -/

/-- Where a sequence of commands succeeds, both of its parts do. -/
theorem bind_succeeds {run : Run α} {f : α → Run β} {s s' : Server} {y : β}
    (h : (run >>= f).run s = (.ok y, s')) :
    ∃ x mid, run.run s = (.ok x, mid) ∧ (f x).run mid = (.ok y, s') := by
  change ExceptT.bindCont f (run.run s).1 (run.run s).2 = _ at h
  rcases hrun : run.run s with ⟨cause | x, mid⟩
  · rw [hrun] at h
    cases h
  · rw [hrun] at h
    exact ⟨x, mid, rfl, h⟩

/-- A command that succeeds does what it does to the keyspace. -/
theorem send_succeeds {command : Command} {act : Keyspace → Option (α × Keyspace)}
    {s s' : Server} {x : α} (h : (send command act).run s = (.ok x, s')) :
    act s.space = some (x, s'.space) := by
  change send command act s = _ at h
  unfold send at h
  split at h
  · cases h
  · split at h
    · cases h
    · next hact =>
      cases h
      exact hact

/-- A command that only asks for an answer leaves the keyspace alone. -/
theorem idle_succeeds {command : Command} {s s' : Server}
    (h : (send command fun space => some ((), space)).run s = (.ok (), s')) :
    s'.space = s.space :=
  (Prod.mk.inj (Option.some.inj (send_succeeds h))).2.symm

theorem sAdd_succeeds {key member : String} {s s' : Server}
    (h : (sAdd key member).run s = (.ok (), s')) :
    (∃ ms, s'.space.get? key = some (.members ms) ∧ member ∈ ms) ∧
      ∀ k, k ≠ key → s'.space.get? k = s.space.get? k := by
  obtain ⟨ms, -, hspace⟩ := Option.map_eq_some_iff.mp (send_succeeds h)
  rw [← (Prod.mk.inj hspace).2]
  have hmem : member ∈ insertSorted member ms := mem_insertSorted.mpr (Or.inl rfl)
  refine ⟨⟨insertSorted member ms, ?_, hmem⟩, fun k hk => ?_⟩
  · rw [get?_withMembers, if_pos rfl, if_neg (List.ne_nil_of_mem hmem)]
  · rw [get?_withMembers, if_neg hk]

theorem set_succeeds {key text : String} {s s' : Server}
    (h : (set key text).run s = (.ok (), s')) :
    s'.space = s.space.set key (.text text) :=
  (Prod.mk.inj (Option.some.inj (send_succeeds h))).2.symm

/-! ### What commands keep -/

/-- Whether or not the commands succeed, the keyspace keeps the property, and the server goes on
refusing what it refuses. -/
def Keeps (Q : Keyspace → Prop) (run : Run α) : Prop :=
  ∀ s : Server, Q s.space → Q (run.run s).2.space ∧ (run.run s).2.refuses = s.refuses

namespace Keeps

variable {Q : Keyspace → Prop}

theorem pure (x : α) : Keeps Q (Pure.pure x) :=
  fun _ h => ⟨h, rfl⟩

theorem bind {run : Run α} {f : α → Run β} (h : Keeps Q run) (hf : ∀ x, Keeps Q (f x)) :
    Keeps Q (run >>= f) := by
  intro s hs
  show Q (ExceptT.bindCont f (run.run s).1 (run.run s).2).2.space ∧
    (ExceptT.bindCont f (run.run s).1 (run.run s).2).2.refuses = _
  obtain ⟨hmid, hrefuses⟩ := h s hs
  generalize run.run s = after at hmid hrefuses
  rcases after with ⟨cause | x, mid⟩
  · exact ⟨hmid, hrefuses⟩
  · obtain ⟨hafter, hsame⟩ := hf x mid hmid
    exact ⟨hafter, hsame.trans hrefuses⟩

theorem forM {xs : List α} {f : α → Run Unit} (hf : ∀ x, Keeps Q (f x)) :
    Keeps Q (xs.forM f) := by
  induction xs with
  | nil => exact .pure ()
  | cons x xs ih => exact (hf x).bind fun _ => ih

theorem send {command : Command} {act : Keyspace → Option (α × Keyspace)}
    (h : ∀ {space x space'}, Q space → act space = some (x, space') → Q space') :
    Keeps Q (send command act) := by
  intro s hs
  show Q (Redis.send command act s).2.space ∧ (Redis.send command act s).2.refuses = _
  unfold Redis.send
  split
  · exact ⟨hs, rfl⟩
  · split
    · exact ⟨hs, rfl⟩
    · next hact => exact ⟨h hs hact, rfl⟩

/-- A command that only reads. -/
theorem send_reads {command : Command} {act : Keyspace → Option (α × Keyspace)}
    (h : ∀ {space x space'}, act space = some (x, space') → space' = space) :
    Keeps Q (Redis.send command act) :=
  .send fun hs hact => h hact ▸ hs

/-- A command that only asks for an answer. -/
theorem idle (command : Command) :
    Keeps Q (Redis.send command fun space => some ((), space)) :=
  .send_reads fun hact => (Prod.mk.inj (Option.some.inj hact)).2.symm

end Keeps

end Redis

namespace Cache

open Redis (Keyspace Keeps Run Server)

variable {p : KeyPrefix} {Q : Keyspace → Prop}

/-- Nothing that is written under the keys of a cache takes the property away. -/
structure Stable (p : KeyPrefix) (Q : Keyspace → Prop) : Prop where
  erase : ∀ {space} (key : String), Q space → Q (space.erase key)
  withMembers : ∀ {space} (key : String) (ms : List String), Q space →
    Q (Redis.withMembers space key ms)
  setText : ∀ {space} (i text : String), Q space → Q (space.set (p.value i) (.text text))

theorem stable_true (p : KeyPrefix) : Stable p fun _ => True :=
  ⟨fun _ h => h, fun _ _ h => h, fun _ _ h => h⟩

/-! ### What scripts keep -/

namespace Stable

variable (hQ : Stable p Q)

include hQ

theorem sAdd (key member : String) : Keeps Q (Redis.sAdd key member) := by
  refine .send fun h hact => ?_
  obtain ⟨ms, -, heq⟩ := Option.map_eq_some_iff.mp hact
  exact (Prod.mk.inj heq).2 ▸ hQ.withMembers key _ h

theorem sRem (key member : String) : Keeps Q (Redis.sRem key member) := by
  refine .send fun h hact => ?_
  obtain ⟨ms, -, heq⟩ := Option.map_eq_some_iff.mp hact
  exact (Prod.mk.inj heq).2 ▸ hQ.withMembers key _ h

theorem set (i text : String) : Keeps Q (Redis.set (p.value i) text) := by
  refine .send fun h hact => ?_
  exact (Prod.mk.inj (Option.some.inj hact)).2 ▸ hQ.setText i text h

end Stable

theorem keeps_del (herase : ∀ {space} (key : String), Q space → Q (space.erase key))
    (keys : List String) : Keeps Q (Redis.del keys) := by
  refine .send fun {space} _ {_} h hact => ?_
  rw [← (Prod.mk.inj (Option.some.inj hact)).2]
  clear hact
  induction keys generalizing space with
  | nil => exact h
  | cons key keys ih => exact ih (herase key h)

theorem keeps_sMembers (key : String) : Keeps Q (Redis.sMembers key) := by
  refine .send_reads fun hact => ?_
  obtain ⟨ms, -, heq⟩ := Option.map_eq_some_iff.mp hact
  exact (Prod.mk.inj heq).2.symm

theorem keeps_sRandMember (key : String) : Keeps Q (Redis.sRandMember key) := by
  refine .send_reads fun hact => ?_
  obtain ⟨ms, -, heq⟩ := Option.map_eq_some_iff.mp hact
  exact (Prod.mk.inj heq).2.symm

theorem keeps_get (key : String) : Keeps Q (Redis.get key) := by
  refine .send_reads fun hact => ?_
  split at hact
  · exact (Prod.mk.inj (Option.some.inj hact)).2.symm
  · exact (Prod.mk.inj (Option.some.inj hact)).2.symm
  · cases hact

theorem keeps_getText (p : KeyPrefix) (key : String) : Keeps Q (SharedStore.getText p key) := by
  refine (Keeps.idle .connect).bind fun _ => (keeps_sRandMember _).bind fun chosen => ?_
  rcases chosen with - | i
  · exact .pure _
  · exact keeps_get _

theorem keeps_contains (p : KeyPrefix) (key : String) : Keeps Q (SharedStore.contains p key) := by
  refine (Keeps.idle .connect).bind fun _ => .send_reads fun hact => ?_
  exact (Prod.mk.inj (Option.some.inj hact)).2.symm

/-- An addition writes members and one text. -/
theorem keeps_add (hsAdd : ∀ key member, Keeps Q (Redis.sAdd key member))
    (hset : ∀ i text, Keeps Q (Redis.set (p.value i) text)) (key : String) (etag : WeakEtag) :
    Keeps Q (SharedStore.add p key etag) :=
  (Keeps.idle .connect).bind fun _ => (Keeps.idle .evalSha).bind fun _ =>
    (hsAdd _ _).bind fun _ => (hset _ _).bind fun _ => (hsAdd _ _).bind fun _ => hsAdd _ _

/-- A removal writes only by taking members and keys out. -/
theorem keeps_remove (hsRem : ∀ key member, Keeps Q (Redis.sRem key member))
    (hdel : ∀ keys, Keeps Q (Redis.del keys)) (p : KeyPrefix) (key : String) :
    Keeps Q (SharedStore.remove p key) := by
  have hdrop : ∀ i, Keeps Q (SharedStore.drop p i) := fun i =>
    (keeps_sMembers _).bind fun _ => (Keeps.forM fun _ => hsRem _ _).bind fun _ =>
      (hdel _).bind fun _ => hsRem _ _
  refine (Keeps.idle .connect).bind fun _ => (Keeps.idle .evalSha).bind fun _ =>
    (keeps_sMembers _).bind fun identities => ?_
  split
  · exact .pure _
  · exact (Keeps.forM hdrop).bind fun _ => (hdel _).bind fun _ => .pure _

namespace Stable

variable (hQ : Stable p Q)

include hQ

theorem add (key : String) (etag : WeakEtag) : Keeps Q (SharedStore.add p key etag) :=
  keeps_add hQ.sAdd hQ.set key etag

theorem remove (key : String) : Keeps Q (SharedStore.remove p key) :=
  keeps_remove hQ.sRem (keeps_del hQ.erase) p key

end Stable

/-! ### Scripts that succeed -/

/-- After the script that adds an etag the key leads to its identity, and its text is there. -/
theorem SharedStore.add_succeeds {s s' : Server} {key : String} {etag : WeakEtag}
    (h : (SharedStore.add p key etag).run s = (.ok (), s')) :
    (∃ ms, s'.space.get? (p.lookup key) = some (.members ms) ∧ etag.identity ∈ ms) ∧
      s'.space.get? (p.value etag.identity) = some (.text etag.text) := by
  obtain ⟨⟨⟩, s₀, -, h⟩ := Redis.bind_succeeds h
  obtain ⟨⟨⟩, s₁, -, h⟩ := Redis.bind_succeeds h
  obtain ⟨⟨⟩, s₂, hlookup, h⟩ := Redis.bind_succeeds h
  obtain ⟨⟨⟩, s₃, hset, h⟩ := Redis.bind_succeeds h
  obtain ⟨⟨⟩, s₄, haliases, hindex⟩ := Redis.bind_succeeds h
  obtain ⟨⟨ms, hms, hmem⟩, -⟩ := Redis.sAdd_succeeds hlookup
  have hspace := Redis.set_succeeds hset
  obtain ⟨-, hframe₄⟩ := Redis.sAdd_succeeds haliases
  obtain ⟨-, hframe⟩ := Redis.sAdd_succeeds hindex
  -- the commands behind touch keys of other families
  refine ⟨⟨ms, ?_, hmem⟩, ?_⟩
  · rw [hframe _ (p.lookup_ne_index key), hframe₄ _ (p.lookup_ne_aliases key _), hspace,
      Dict.get?_set, if_neg (p.lookup_ne_value key _), hms]
  · rw [hframe _ (p.value_ne_index _), hframe₄ _ (p.value_ne_aliases _ _), hspace,
      Dict.get?_set, if_pos rfl]

/-! ### Operations of the cache -/

section

/-- An operation that goes on with the answer of the server, and leaves the store alone then,
leaves the keyspace that the commands left.  It answers only if the commands did. -/
theorem onServer_bind {α β : Type} (p : KeyPrefix) (server : Server) (run : Run α) (f : α → Op β)
    (hf : ∀ x c, ((f x).run c).2.store = c.store) (c : Cache) :
    ((Cache.onServer p server run >>= f).run c).2.store = .shared p (run.run server).2 ∧
      ∀ y, ((Cache.onServer p server run >>= f).run c).1 = .ok y →
        ∃ x c', (run.run server).1 = .ok x ∧ ((f x).run c').1 = .ok y := by
  show (ExceptT.bindCont f (Cache.onServer p server run c).1
      (Cache.onServer p server run c).2).2.store = _ ∧
    ∀ y, (ExceptT.bindCont f (Cache.onServer p server run c).1
      (Cache.onServer p server run c).2).1 = .ok y → _
  unfold Cache.onServer
  -- the server is written back whether or not the commands succeeded
  have hrun : run server = run.run server := rfl
  rw [hrun]
  rcases run.run server with ⟨cause | x, after⟩
  · refine ⟨rfl, fun y h => ?_⟩
    cases h
  · exact ⟨hf x _, fun y h => ⟨x, _, rfl, h⟩⟩

variable {server : Server} {c : Cache} (hc : c.store = .shared p server)

include hc

theorem add_on_shared (key : String) (etag : WeakEtag) :
    ((Cache.add key etag).run c).2.store = .shared p ((SharedStore.add p key etag).run server).2 ∧
      ∀ b, ((Cache.add key etag).run c).1 = .ok b →
        ((SharedStore.add p key etag).run server).1 = .ok () ∧ b = true := by
  obtain ⟨store, reports⟩ := c
  obtain rfl : store = .shared p server := hc
  obtain ⟨hstore, hanswer⟩ := onServer_bind p server (SharedStore.add p key etag) (fun _ => do
    log .sharedCache .debug "stored weak etag" [Log.field "key" key]
    return true) (fun _ _ => rfl) ⟨.shared p server, reports⟩
  refine ⟨hstore, fun b hb => ?_⟩
  obtain ⟨⟨⟩, c', hrun, htrue⟩ := hanswer b hb
  exact ⟨hrun, (Except.ok.inj htrue).symm⟩

theorem holds_on_shared (key : String) :
    ((Cache.holds key).run c).2.store = .shared p ((SharedStore.contains p key).run server).2 := by
  obtain ⟨store, reports⟩ := c
  obtain rfl : store = .shared p server := hc
  have h := onServer_bind p server (SharedStore.contains p key) pure (fun _ _ => rfl)
    ⟨.shared p server, reports⟩
  rw [bind_pure] at h
  exact h.1

theorem remove_on_shared (key : String) :
    ((Cache.remove key).run c).2.store = .shared p ((SharedStore.remove p key).run server).2 := by
  obtain ⟨store, reports⟩ := c
  obtain rfl : store = .shared p server := hc
  have h := onServer_bind p server (SharedStore.remove p key) pure (fun _ _ => rfl)
    ⟨.shared p server, reports⟩
  rw [bind_pure] at h
  exact h.1

theorem find_on_shared (key : String) :
    ((Cache.find key).run c).2.store = .shared p ((SharedStore.getText p key).run server).2 := by
  obtain ⟨store, reports⟩ := c
  obtain rfl : store = .shared p server := hc
  refine (onServer_bind p server (SharedStore.getText p key) _ (fun answer c => ?_)
    ⟨.shared p server, reports⟩).1
  rcases answer with - | text
  · rfl
  · rcases hparse : WeakEtag.parse text with cause | etag
    · simp only [hparse]
      rfl
    · simp only [hparse]
      rfl

end

namespace Store

/-- The store is on a server that refuses these commands, and its keyspace has the property. -/
def On (p : KeyPrefix) (Q : Keyspace → Prop) (refuses : Nat → Redis.Command → Bool)
    (store : Store) : Prop :=
  ∃ server, store = .shared p server ∧ Q server.space ∧ server.refuses = refuses

theorem On.after {refuses : Nat → Redis.Command → Bool} {α : Type} {run : Run α}
    (hrun : Keeps Q run) {server : Server} {store : Store}
    (hstore : store = .shared p (run.run server).2) (hQ : Q server.space)
    (hrefuses : server.refuses = refuses) : store.On p Q refuses := by
  obtain ⟨hafter, hsame⟩ := hrun server hQ
  exact ⟨_, hstore, hafter, hsame.trans hrefuses⟩

/-- Whatever is refused, the commands of a program keep what a server refuses, and every stable
property of its keyspace. -/
theorem keptByCommands_on (hQ : Stable p Q) (refuses : Nat → Redis.Command → Bool) :
    Program.KeptByCommands (On p Q refuses) where
  find key c := by
    rintro ⟨server, hc, hspace, hrefuses⟩
    exact .after (keeps_getText p key) (find_on_shared hc key) hspace hrefuses
  add key etag c := by
    rintro ⟨server, hc, hspace, hrefuses⟩
    exact .after (hQ.add key etag) (add_on_shared hc key etag).1 hspace hrefuses
  remove key c := by
    rintro ⟨server, hc, hspace, hrefuses⟩
    exact .after (hQ.remove key) (remove_on_shared hc key) hspace hrefuses

end Store

end Cache

end FreshTag
