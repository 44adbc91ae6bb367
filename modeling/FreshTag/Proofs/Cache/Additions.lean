/-
FreshTag/Proofs/Cache/Additions.lean

Where the links of a shared cache come from.  A key leads to an identity only
because an etag of it was added under the key: a removal takes links away, and
nothing else makes any.  So it is enough to know under which keys a program
adds its etags (`Program.AddsOnly`) to know what the keys lead to afterwards,
whatever the server refuses (`Store.On.run_adding`).

A key that leads to one identity alone is answered with the text that is stored
there (`find_alone`).
-/
import FreshTag.Proofs.Cache.Answers

namespace FreshTag.Cache

open Redis (Keeps Keyspace Yields)

/-! ### What a program adds -/

namespace Program

variable {α β : Type}

/-- Whatever it is answered, the program adds an etag under a key only if that is allowed. -/
inductive AddsOnly (allowed : String → WeakEtag → Prop) : Program α → Prop
  | done (x : α) : AddsOnly allowed (.done x)
  | report {f : Telemetry → Telemetry} {rest : Program α} :
    AddsOnly allowed rest → AddsOnly allowed (.report f rest)
  | find {key : String} {rest : Except Error (Option WeakEtag) → Program α} :
    (∀ found, AddsOnly allowed (rest found)) → AddsOnly allowed (.find key rest)
  | add {key : String} {etag : WeakEtag} {rest : Except Error Bool → Program α} :
    allowed key etag → (∀ added, AddsOnly allowed (rest added)) →
    AddsOnly allowed (.add key etag rest)
  | remove {key : String} {rest : Except Error Bool → Program α} :
    (∀ removed, AddsOnly allowed (rest removed)) → AddsOnly allowed (.remove key rest)

namespace AddsOnly

variable {allowed : String → WeakEtag → Prop}

theorem bind {prog : Program α} {f : α → Program β} (h : AddsOnly allowed prog)
    (hf : ∀ x, AddsOnly allowed (f x)) : AddsOnly allowed (prog >>= f) := by
  show AddsOnly allowed (prog.bind f)
  induction h with
  | done x => exact hf x
  | report _ ih => exact .report ih
  | find _ ih => exact .find ih
  | add hadd _ ih => exact .add hadd ih
  | remove _ ih => exact .remove ih

theorem mono {allowed' : String → WeakEtag → Prop} {prog : Program α} (h : AddsOnly allowed prog)
    (hle : ∀ key etag, allowed key etag → allowed' key etag) : AddsOnly allowed' prog := by
  induction h with
  | done x => exact .done x
  | report _ ih => exact .report ih
  | find _ ih => exact .find ih
  | add hadd _ ih => exact .add (hle _ _ hadd) ih
  | remove _ ih => exact .remove ih

/-- What looking and removing keep, and adding where it is allowed, the program keeps. -/
theorem run {P : Store → Prop} {prog : Program α} (h : AddsOnly allowed prog)
    (hfind : ∀ key (c : Cache), P c.store → P ((Cache.find key).run c).2.store)
    (hadd : ∀ key etag, allowed key etag → ∀ c : Cache, P c.store →
      P ((Cache.add key etag).run c).2.store)
    (hremove : ∀ key (c : Cache), P c.store → P ((Cache.remove key).run c).2.store)
    (c : Cache) (hc : P c.store) : P (prog.run c).2.store := by
  -- on the commands; each finds the cache as the ones before it left it
  induction h generalizing c with
  | done x => exact hc
  | report _ ih => exact ih _ hc
  | find _ ih => exact ih _ _ (hfind _ c hc)
  | add hallowed _ ih => exact ih _ _ (hadd _ _ hallowed c hc)
  | remove _ ih => exact ih _ _ (hremove _ c hc)

end AddsOnly

/-- Remembering adds an etag under its own keys. -/
theorem addsOnly_remembering (etag : WeakEtag) :
    AddsOnly (fun key e => e = etag ∧ (key = e.identity ∨ key = e.versionKey))
      (remembering etag) := by
  refine .find fun found => ?_
  rcases found with cause | _ | found
  · exact .done _
  · refine .add ⟨rfl, Or.inl rfl⟩ fun stored => ?_
    rcases stored with cause | stored
    · exact .done _
    · refine .add ⟨rfl, Or.inr rfl⟩ fun linked => ?_
      rcases linked with cause | linked
      · exact .done _
      · exact .done _
  · exact .done _

end Program

/-! ### What keys lead to -/

variable {p : KeyPrefix} {link : String → String → Prop}

/-- Keys lead only to identities that they may lead to. -/
def Within (p : KeyPrefix) (link : String → String → Prop) (space : Keyspace) : Prop :=
  ∀ key ms, space.get? (p.lookup key) = some (.members ms) → ∀ i ∈ ms, link key i

theorem within_empty (p : KeyPrefix) (link : String → String → Prop) : Within p link {} := by
  intro key ms h
  cases h

namespace Within

variable {space : Keyspace} (h : Within p link space)

include h

theorem erase (key : String) : Within p link (space.erase key) := by
  intro k ms hget
  rw [Dict.get?_erase] at hget
  split at hget
  · cases hget
  · exact h k ms hget

theorem withMembers {key : String} {ms : List String}
    (hms : ∀ k, key = p.lookup k → ∀ i ∈ ms, link k i) :
    Within p link (Redis.withMembers space key ms) := by
  intro k ms' hget
  rw [Redis.get?_withMembers] at hget
  split at hget
  · next hk =>
    split at hget
    · cases hget
    · cases hget
      exact hms k hk.symm
  · exact h k ms' hget

theorem setText (i text : String) : Within p link (space.set (p.value i) (.text text)) := by
  intro k ms hget
  rw [Dict.get?_set, if_neg (p.lookup_ne_value k i)] at hget
  exact h k ms hget

theorem members {k : String} {ms : List String}
    (hms : Redis.membersOf space (p.lookup k) = some ms) : ∀ i ∈ ms, link k i := by
  intro i hi
  unfold Redis.membersOf at hms
  split at hms
  · cases hms
    cases hi
  · next hget =>
    cases hms
    exact h k ms hget i hi
  · cases hms

end Within

theorem keeps_within_sRem (key member : String) :
    Keeps (Within p link) (Redis.sRem key member) := by
  refine .send fun h hact => ?_
  obtain ⟨ms, hms, heq⟩ := Option.map_eq_some_iff.mp hact
  rw [← (Prod.mk.inj heq).2]
  refine h.withMembers fun k hk i hi => ?_
  subst hk
  exact h.members hms i (List.mem_of_mem_filter hi)

theorem keeps_within_sAdd {key member : String} (hlink : ∀ k, key = p.lookup k → link k member) :
    Keeps (Within p link) (Redis.sAdd key member) := by
  refine .send fun h hact => ?_
  obtain ⟨ms, hms, heq⟩ := Option.map_eq_some_iff.mp hact
  rw [← (Prod.mk.inj heq).2]
  refine h.withMembers fun k hk i hi => ?_
  rcases Redis.mem_insertSorted.mp hi with rfl | hi
  · exact hlink k hk
  · subst hk
    exact h.members hms i hi

theorem keeps_within_set (i text : String) :
    Keeps (Within p link) (Redis.set (p.value i) text) := by
  refine .send fun h hact => ?_
  exact (Prod.mk.inj (Option.some.inj hact)).2 ▸ h.setText i text

/-- Of the sets that the script writes, one says what a key leads to. -/
theorem keeps_within_add {key : String} {etag : WeakEtag} (hlink : link key etag.identity) :
    Keeps (Within p link) (SharedStore.add p key etag) := by
  -- the keys of the other two sets, of an etag and of the index, are no lookup keys
  refine (Keeps.idle .connect).bind fun _ => (Keeps.idle .evalSha).bind fun _ =>
    (keeps_within_sAdd ?_).bind fun _ => (keeps_within_set _ _).bind fun _ =>
    (keeps_within_sAdd ?_).bind fun _ => keeps_within_sAdd ?_
  · rintro k hk
    obtain rfl := p.lookup_inj.mp hk
    exact hlink
  · rintro k hk
    exact absurd hk.symm (p.lookup_ne_aliases k _)
  · rintro k hk
    exact absurd hk.symm (p.lookup_ne_index k)

theorem keeps_within_remove (key : String) :
    Keeps (Within p link) (SharedStore.remove p key) :=
  keeps_remove keeps_within_sRem (keeps_del fun key h => h.erase key) p key

/-- Whatever is refused, after a program keys lead only to what they led to before and to what the
program adds. -/
theorem Store.On.run_adding {α : Type} {prog : Program α} {refuses : Nat → Redis.Command → Bool}
    (hprog : prog.AddsOnly fun key etag => link key etag.identity) {c : Cache}
    (hc : c.store.On p (Within p link) refuses) :
    (prog.run c).2.store.On p (Within p link) refuses := by
  refine hprog.run (fun key c => ?_) (fun key etag hlink c => ?_) (fun key c => ?_) c hc
  · rintro ⟨server, hc, hspace, hrefuses⟩
    exact .after (keeps_getText p key) (find_on_shared hc key) hspace hrefuses
  · rintro ⟨server, hc, hspace, hrefuses⟩
    exact .after (keeps_within_add hlink) (add_on_shared hc key etag).1 hspace hrefuses
  · rintro ⟨server, hc, hspace, hrefuses⟩
    exact .after (keeps_within_remove key) (remove_on_shared hc key) hspace hrefuses

theorem Store.On.link_of_leads {refuses : Nat → Redis.Command → Bool} {store : Store}
    (h : store.On p (Within p link) refuses) {key i : String} (hleads : store.Leads key i) :
    link key i := by
  obtain ⟨server, rfl, hwithin, -⟩ := h
  obtain ⟨ms, hms, hi⟩ := hleads
  exact hwithin key ms hms i hi

/-! ### Reading what a key leads to -/

/-- On a server that refuses nothing, a key that leads to one identity alone is answered with the
text that is stored there. -/
theorem find_alone {c : Cache} {server : Redis.Server} (hstore : c.store = .shared p server)
    (hworking : c.store.Working) {key i : String} {etag : WeakEtag} (hleads : c.store.Leads key i)
    (halone : ∀ j, c.store.Leads key j → j = i) (hstores : c.store.Stores i etag) :
    ((Cache.find key).run c).1 = decoded etag.text := by
  rw [hstore] at hworking hleads halone hstores
  obtain ⟨space, received, refuses⟩ := server
  obtain rfl : refuses = fun _ _ => false := hworking
  obtain ⟨ms, hms, hi⟩ := hleads
  have hget : space.get? (p.lookup key) = some (.members ms) := hms
  -- whichever member the server chooses, there is only one
  have hchosen : ms.head? = some i := by
    rcases ms with - | ⟨j, js⟩
    · cases hi
    · rw [halone j ⟨_, hms, List.mem_cons_self ..⟩]
      rfl
  have htext : Yields (SharedStore.getText p key) space (some etag.text) space := by
    have hread : Yields (Redis.sRandMember (p.lookup key)) space (some i) space :=
      .send (by simp [Redis.membersOf, hget, hchosen])
    exact (Yields.idle .connect space).bind (hread.bind (Redis.yields_get_text hstores))
  exact (Serves.find_some htext c ⟨received, hstore⟩).1

end FreshTag.Cache
