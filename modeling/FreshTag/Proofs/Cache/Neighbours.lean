/-
FreshTag/Proofs/Cache/Neighbours.lean

Several shared caches on one server.  Names are plain concatenations of texts
that may hold colons and the names of the families themselves.  Under one
prefix they never collide all the same, since the family stands right behind
the prefix (`spelled_injective`).  Two prefixes share no name if neither begins
with the other one and a colon (`KeyPrefix.Apart.not_owns`).

A visit is one request under some prefix, with the commands that are refused
while it lasts.  A visit under a prefix apart leaves the names of a cache alone
(`Visit.foreign`), and a visit of the cache itself depends on them only
(`Visit.own`).  So whoever visits the server in between, the cache is answered
as if it were alone (`answersTo_alone`).
-/
import FreshTag.Proofs.Cache.Footprints
import FreshTag.Proofs.Cache.Requests
import Mathlib.Data.List.DropRight

namespace FreshTag.Cache

open Redis (Alike Confined Keyspace SameOn Server)

variable {p q : KeyPrefix}

/-! ### Prefixes -/

/-- The prefix of a setting is what stands before the colons at its end. -/
theorem toList_ofSetting (setting : String) :
    (∃ n, setting.toList = (KeyPrefix.ofSetting setting).text.toList ++ List.replicate n ':') ∧
      (KeyPrefix.ofSetting setting).text.toList.getLast? ≠ some ':' := by
  have htext : (KeyPrefix.ofSetting setting).text.toList = setting.toList.rdropWhile (· = ':') :=
    String.toList_ofList
  have hcolons : ∀ c ∈ setting.toList.rtakeWhile (· = ':'), c = ':' := fun c hc => by
    simpa using List.mem_rtakeWhile_imp hc
  rw [htext]
  constructor
  · refine ⟨(setting.toList.rtakeWhile (· = ':')).length, ?_⟩
    rw [← List.eq_replicate_of_mem hcolons, List.rdropWhile_append_rtakeWhile]
  · intro hlast
    have hne := List.ne_nil_of_mem (List.mem_of_getLast? hlast)
    rw [List.getLast?_eq_some_getLast hne] at hlast
    exact List.rdropWhile_last_not _ _ hne (decide_eq_true (Option.some.inj hlast))

/-- The prefixes differ, and neither begins with the other one and a colon. -/
structure KeyPrefix.Apart (p q : KeyPrefix) : Prop where
  ne : p ≠ q
  not_within : ¬ (p.text ++ ":").toList <+: q.text.toList
  not_around : ¬ (q.text ++ ":").toList <+: p.text.toList

theorem toList_spelled (p : KeyPrefix) (name : Name) :
    ∃ rest, (name.spelled p).toList = p.text.toList ++ ':' :: rest := by
  cases name <;> simp [Name.spelled]

/-- Where one prefix and a colon are followed up to another prefix and a colon, the two are the same
or the other one begins with the first one and a colon. -/
theorem eq_or_within {rest rest' : List Char} {mid : List Char}
    (hq : q.text.toList = p.text.toList ++ mid) (h : ':' :: rest = mid ++ ':' :: rest') :
    p = q ∨ (p.text ++ ":").toList <+: q.text.toList := by
  rcases mid with - | ⟨c, mid⟩
  · rw [List.append_nil] at hq
    exact Or.inl (congrArg KeyPrefix.mk (String.toList_inj.mp hq.symm))
  · obtain rfl : ':' = c := (List.cons.inj h).1
    refine Or.inr ⟨mid, ?_⟩
    rw [hq]
    simp

/-- Prefixes that are apart share no name. -/
theorem KeyPrefix.Apart.not_owns (h : p.Apart q) {k : String} (hq : q.Owns k) : ¬ p.Owns k := by
  rintro ⟨name, rfl⟩
  obtain ⟨name', hsame⟩ := hq
  obtain ⟨rest, hrest⟩ := toList_spelled p name
  obtain ⟨rest', hrest'⟩ := toList_spelled q name'
  rw [← hsame, hrest'] at hrest
  rcases List.append_eq_append_iff.mp hrest with ⟨mid, hp, hmid⟩ | ⟨mid, hq, hmid⟩
  · rcases eq_or_within hp hmid with heq | hwithin
    exacts [h.ne heq.symm, h.not_around hwithin]
  · rcases eq_or_within hq hmid with heq | hwithin
    exacts [h.ne heq, h.not_within hwithin]

/-! ### Visits -/

/-- A request of a cache under a prefix, and what the server refuses while it lasts. -/
structure Visit where
  keys : KeyPrefix
  request : Request
  refuses : Nat → Redis.Command → Bool := fun _ _ => false

/-- The keyspace behind a shared store. -/
def Store.space : Store → Keyspace
  | .shared _ server => server.space
  | _ => {}

namespace Visit

/-- The cache that visits a server with the keyspace. -/
def cache (space : Keyspace) (v : Visit) : Cache :=
  { store := .shared v.keys { space, refuses := v.refuses } }

/-- What the visit is answered. -/
def reply (space : Keyspace) (v : Visit) : Except Error Reply :=
  v.request.reply (v.cache space)

/-- The keyspace after the visit. -/
def after (space : Keyspace) (v : Visit) : Keyspace :=
  (v.request.perform (v.cache space)).store.space

end Visit

/-- What the cache under the prefix `q` is answered when it and others visit one after the other. -/
def answersTo (q : KeyPrefix) (space : Keyspace) : List Visit → List (Except Error Reply)
  | [] => []
  | v :: visits =>
    if v.keys = q then v.reply space :: answersTo q (v.after space) visits
    else answersTo q (v.after space) visits

/-! ### Requests and names -/

/-- A request changes and looks at the names under its prefix only. -/
theorem Request.served_within (p : KeyPrefix) (r : Request) :
    (∀ s k, ¬ p.Owns k → (r.served p s).2.space.get? k = s.space.get? k) ∧
      ∀ {s t}, Alike p.Owns s t →
        (r.served p s).1 = (r.served p t).1 ∧ Alike p.Owns (r.served p s).2 (r.served p t).2 := by
  have hanswer : ∀ {α : Type} {run : Redis.Run α}
      (tell : Except Redis.Failure α → Except Error Reply), Confined p.Owns run →
      (∀ s k, ¬ p.Owns k → (run.run s).2.space.get? k = s.space.get? k) ∧
      ∀ {s t}, Alike p.Owns s t →
        tell (run.run s).1 = tell (run.run t).1 ∧ Alike p.Owns (run.run s).2 (run.run t).2 :=
    fun tell hrun => ⟨hrun.frame, fun hst => ⟨congrArg tell (hrun.same hst).1, (hrun.same hst).2⟩⟩
  cases r with
  | add key etag =>
    refine hanswer (answered fun _ => .ok (.told true))
      ((confined_add p key etag).mono fun k hk => ?_)
    obtain ⟨name, -, rfl⟩ := List.mem_map.mp hk
    exact ⟨name, rfl⟩
  | remove key => exact hanswer (answered fun found => .ok (.told found)) (confined_remove p key)
  | holds key =>
    refine hanswer (answered fun found => .ok (.told found)) ((confined_contains p key).mono ?_)
    rintro k rfl
    exact owns_lookup p key
  | size =>
    refine hanswer counted ((confined_size p).mono ?_)
    rintro k rfl
    exact owns_index p
  | find key =>
    refine hanswer (answered fun text => (decodedIn text).map .found)
      ((confined_getText p key).mono ?_)
    rintro k (rfl | ⟨i, rfl⟩)
    exacts [owns_lookup p key, owns_value p i]

namespace Visit

/-- A visit under a prefix apart leaves the names alone. -/
theorem foreign {v : Visit} (h : v.keys.Apart q) (space : Keyspace) :
    SameOn q.Owns (v.after space) space := by
  intro k hk
  have hstore := (v.request.on_shared (c := v.cache space) rfl).2
  rw [after, hstore]
  exact (v.request.served_within v.keys).1 _ k (h.not_owns hk)

/-- A visit depends on the names under its prefix only. -/
theorem own (v : Visit) {space space' : Keyspace} (h : SameOn v.keys.Owns space space') :
    v.reply space = v.reply space' ∧ SameOn v.keys.Owns (v.after space) (v.after space') := by
  obtain ⟨hreply, hstore⟩ := v.request.on_shared (c := v.cache space) rfl
  obtain ⟨hreply', hstore'⟩ := v.request.on_shared (c := v.cache space') rfl
  obtain ⟨hanswer, hafter⟩ := (v.request.served_within v.keys).2
    (s := { space, refuses := v.refuses }) (t := { space := space', refuses := v.refuses })
    ⟨h, rfl, rfl⟩
  refine ⟨?_, ?_⟩
  · rw [reply, reply, hreply, hreply', hanswer]
  · rw [after, after, hstore, hstore']
    exact hafter.space

end Visit

/-- Whoever visits in between under prefixes apart, the cache is answered as if it were alone. -/
theorem answersTo_alone {visits : List Visit} (h : ∀ v ∈ visits, v.keys = q ∨ v.keys.Apart q)
    {space space' : Keyspace} (hsame : SameOn q.Owns space space') :
    answersTo q space visits = answersTo q space' (visits.filter (·.keys = q)) := by
  -- on the visits; the keyspaces need to hold the same only under the names of the cache
  induction visits generalizing space space' with
  | nil => rfl
  | cons v visits ih =>
    have hrest := fun w hw => h w (List.mem_cons_of_mem _ hw)
    rcases h v List.mem_cons_self with rfl | hapart
    · obtain ⟨hreply, hafter⟩ := v.own hsame
      have hkeep : (v :: visits).filter (·.keys = v.keys) =
          v :: visits.filter (·.keys = v.keys) := List.filter_cons_of_pos (decide_eq_true rfl)
      rw [hkeep, answersTo, answersTo, if_pos rfl, if_pos rfl, hreply, ih hrest hafter]
    · have hne : v.keys ≠ q := hapart.ne
      rw [List.filter_cons_of_neg (by simp [hne]), answersTo, if_neg hne]
      exact ih hrest fun k hk => (Visit.foreign hapart space k hk).trans (hsame k hk)

/-! ### Key spaces -/

/-- The store under the prefix works on the names as they are spelled: its commands and scripts are
confined to them, an addition fills its four names, and a removal empties those of every identity
behind its key. -/
structure KeyPrefix.WorksOnNames (p : KeyPrefix) : Prop where
  lookup : ∀ key, p.lookup key = (Name.lookup key).spelled p
  value : ∀ i, p.value i = (Name.value i).spelled p
  aliases : ∀ i, p.aliases i = (Name.aliases i).spelled p
  index : p.index = Name.index.spelled p
  add : ∀ key etag, Confined (· ∈ (addedNames key etag).map (Name.spelled p))
    (SharedStore.add p key etag)
  added : ∀ key etag s s', (SharedStore.add p key etag).run s = (.ok (), s') →
    (∃ ms, s'.space.get? ((Name.lookup key).spelled p) = some (.members ms) ∧
      etag.identity ∈ ms) ∧
    s'.space.get? ((Name.value etag.identity).spelled p) = some (.text etag.text) ∧
    (∃ ms, s'.space.get? ((Name.aliases etag.identity).spelled p) = some (.members ms) ∧
      key ∈ ms) ∧
    ∃ ms, s'.space.get? (Name.index.spelled p) = some (.members ms) ∧ etag.identity ∈ ms
  remove : ∀ key, Confined p.Owns (SharedStore.remove p key)
  removed : ∀ key s s', (SharedStore.remove p key).run s = (.ok true, s') →
    s'.space.get? ((Name.lookup key).spelled p) = none ∧
    ∀ ms, s.space.get? ((Name.lookup key).spelled p) = some (.members ms) → ∀ i ∈ ms,
      s'.space.get? ((Name.value i).spelled p) = none ∧
      s'.space.get? ((Name.aliases i).spelled p) = none ∧
      ∀ ms', s'.space.get? (Name.index.spelled p) = some (.members ms') → i ∉ ms'
  contains : ∀ key, Confined (· = (Name.lookup key).spelled p) (SharedStore.contains p key)
  getText : ∀ key, Confined
    (fun k => k = (Name.lookup key).spelled p ∨ ∃ i, k = (Name.value i).spelled p)
    (SharedStore.getText p key)
  size : Confined (· = Name.index.spelled p) (SharedStore.size p)

theorem worksOnNames (p : KeyPrefix) : p.WorksOnNames where
  lookup _ := rfl
  value _ := rfl
  aliases _ := rfl
  index := rfl
  add := confined_add p
  added _ _ _ _ h := SharedStore.add_fills h
  remove := confined_remove p
  removed _ _ _ h := by
    obtain ⟨hlookup, hgone⟩ := SharedStore.remove_empties h
    refine ⟨hlookup, fun ms hms i hi => ?_⟩
    exact ⟨(hgone ms hms i hi).value, (hgone ms hms i hi).aliases, (hgone ms hms i hi).index⟩
  contains := confined_contains p
  getText := confined_getText p
  size := confined_size p

/-- Key spaces do not collide.  A prefix is a setting without the colons at its end.  Under it the
store works on four families of names, all of them different, and whoever visits the server in
between under prefixes apart from its own, it is answered as if it were alone. -/
theorem key_spaces_do_not_collide :
    (∀ setting, (∃ n, setting.toList =
        (KeyPrefix.ofSetting setting).text.toList ++ List.replicate n ':') ∧
      (KeyPrefix.ofSetting setting).text.toList.getLast? ≠ some ':') ∧
    (∀ p, Function.Injective (Name.spelled p) ∧ p.WorksOnNames) ∧
    ∀ q visits, (∀ v ∈ visits, v.keys = q ∨ v.keys.Apart q) → ∀ space,
      answersTo q space visits = answersTo q space (visits.filter (·.keys = q)) :=
  ⟨toList_ofSetting, fun p => ⟨spelled_injective p, worksOnNames p⟩,
    fun _ _ h _ => answersTo_alone h fun _ _ => rfl⟩

/-- Two caches keep an oak on one server, and the one does not notice when the other one removes
it. -/
theorem oak_stays_next_door :
    let oak : WeakEtag := ⟨"trees", "oak", "10", "", none⟩
    let visits : List Visit :=
      [{ keys := ⟨"west"⟩, request := .add "10" oak }, { keys := ⟨"east"⟩, request := .holds "10" },
        { keys := ⟨"east"⟩, request := .add "10" oak },
        { keys := ⟨"west"⟩, request := .remove "10" },
        { keys := ⟨"east"⟩, request := .holds "10" }]
    (∀ v ∈ visits, v.keys = ⟨"east"⟩ ∨ v.keys.Apart ⟨"east"⟩) ∧
      answersTo ⟨"east"⟩ {} visits = [.ok (.told false), .ok (.told true), .ok (.told true)] := by
  intro oak visits
  have hapart : KeyPrefix.Apart ⟨"west"⟩ ⟨"east"⟩ := ⟨by decide, by decide, by decide⟩
  have hvisits : ∀ v ∈ visits, v.keys = ⟨"east"⟩ ∨ v.keys.Apart ⟨"east"⟩ := by
    simp [visits, hapart]
  refine ⟨hvisits, ?_⟩
  rw [key_spaces_do_not_collide.2.2 ⟨"east"⟩ visits hvisits {}]
  rfl

/-- A prefix and a colon in front of another one: the two share names. -/
example : (KeyPrefix.mk "west").lookup "b:etags" = (KeyPrefix.mk "west:key:b").index := by
  decide

end FreshTag.Cache
