/-
FreshTag/Proofs/Cache/Footprints.lean

What the scripts of the shared cache touch.  `Confined K run` says that the
commands change nothing outside of the names `K` and look at nothing outside of
them: on two servers that are alike on `K` they answer alike and leave them
alike, whether or not they succeed.  Commands are confined to the names they
are given, sequences of them to all of these (`Confined.bind`), and a wider
footprint is one too (`Confined.mono`).

An addition is confined to four names (`confined_add`), and one that succeeds
has put something under each of them (`SharedStore.add_fills`).  A removal goes
from name to name by what it reads, but never leaves the names under its prefix
(`confined_remove`).
-/
import FreshTag.Proofs.Cache.Refusals

namespace FreshTag

namespace Redis

variable {α β : Type} {K : String → Prop}

/-! ### Alike servers -/

/-- The keyspaces hold the same under the names `K`. -/
def SameOn (K : String → Prop) (space space' : Keyspace) : Prop :=
  ∀ k, K k → space.get? k = space'.get? k

/-- The servers hold the same under the names `K`, and refuse the same from now on. -/
structure Alike (K : String → Prop) (s t : Server) : Prop where
  space : SameOn K s.space t.space
  received : s.received = t.received
  refuses : s.refuses = t.refuses

/-- The commands change and look at nothing but what is under the names `K`. -/
structure Confined (K : String → Prop) (run : Run α) : Prop where
  frame : ∀ s k, ¬ K k → (run.run s).2.space.get? k = s.space.get? k
  same : ∀ {s t}, Alike K s t →
    (run.run s).1 = (run.run t).1 ∧ Alike K (run.run s).2 (run.run t).2

namespace Confined

theorem pure (x : α) : Confined K (Pure.pure x) where
  frame _ _ _ := rfl
  same h := ⟨rfl, h⟩

theorem bind {run : Run α} {f : α → Run β} (h : Confined K run) (hf : ∀ x, Confined K (f x)) :
    Confined K (run >>= f) where
  frame s k hk := by
    show (ExceptT.bindCont f (run.run s).1 (run.run s).2).2.space.get? k = _
    have hrun := h.frame s k hk
    generalize run.run s = r at hrun
    rcases r with ⟨cause | x, after⟩
    · exact hrun
    · exact ((hf x).frame after k hk).trans hrun
  same {s t} hst := by
    show (ExceptT.bindCont f (run.run s).1 (run.run s).2).1 =
        (ExceptT.bindCont f (run.run t).1 (run.run t).2).1 ∧
      Alike K (ExceptT.bindCont f (run.run s).1 (run.run s).2).2
        (ExceptT.bindCont f (run.run t).1 (run.run t).2).2
    obtain ⟨hanswer, hafter⟩ := h.same hst
    generalize run.run s = r at hanswer hafter
    generalize run.run t = r' at hanswer hafter
    rcases r with ⟨cause | x, after⟩ <;> rcases r' with ⟨cause' | x', after'⟩ <;> cases hanswer
    · exact ⟨rfl, hafter⟩
    · exact (hf x).same hafter

theorem forM {xs : List α} {f : α → Run Unit} (hf : ∀ x, Confined K (f x)) :
    Confined K (xs.forM f) := by
  induction xs with
  | nil => exact .pure ()
  | cons x xs ih => exact (hf x).bind fun _ => ih

/-- A wider footprint. -/
theorem mono {K' : String → Prop} {run : Run α} (h : Confined K run) (hK : ∀ k, K k → K' k) :
    Confined K' run where
  frame s k hk := h.frame s k fun hk' => hk (hK k hk')
  same {s t} hst := by
    have hwithin : Alike K s t := ⟨fun k hk => hst.space k (hK k hk), hst.received, hst.refuses⟩
    obtain ⟨hanswer, hafter⟩ := h.same hwithin
    refine ⟨hanswer, fun k hk => ?_, hafter.received, hafter.refuses⟩
    by_cases hk' : K k
    · exact hafter.space k hk'
    · rw [h.frame s k hk', h.frame t k hk', hst.space k hk]

/-- A command that is not refused changes and looks at nothing but `K`. -/
theorem send {command : Command} {act : Keyspace → Option (α × Keyspace)}
    (hframe : ∀ {space x space'}, act space = some (x, space') → ∀ k, ¬ K k →
      space'.get? k = space.get? k)
    (hsame : ∀ {space space'}, SameOn K space space' →
      (act space = none ∧ act space' = none) ∨
        ∃ x after after', act space = some (x, after) ∧ act space' = some (x, after') ∧
          SameOn K after after') :
    Confined K (send command act) where
  frame s k hk := by
    show (Redis.send command act s).2.space.get? k = _
    unfold Redis.send
    split
    · rfl
    · split
      · rfl
      · next hact => exact hframe hact k hk
  same {s t} hst := by
    show (Redis.send command act s).1 = (Redis.send command act t).1 ∧
      Alike K (Redis.send command act s).2 (Redis.send command act t).2
    obtain ⟨space, received, refuses⟩ := s
    obtain ⟨space', received', refuses'⟩ := t
    obtain ⟨hspace, rfl, rfl⟩ := hst
    unfold Redis.send
    split
    · exact ⟨rfl, hspace, rfl, rfl⟩
    · rcases hsame hspace with ⟨hnone, hnone'⟩ | ⟨x, after, after', hsome, hsome', hafter⟩
      · rw [hnone, hnone']
        exact ⟨rfl, hspace, rfl, rfl⟩
      · rw [hsome, hsome']
        exact ⟨rfl, hafter, rfl, rfl⟩

/-- A command that only asks for an answer. -/
theorem idle (command : Command) :
    Confined K (Redis.send command fun space => some ((), space)) :=
  .send (fun hact _ _ => by rw [← (Prod.mk.inj (Option.some.inj hact)).2])
    fun {space space'} hspace => Or.inr ⟨(), space, space', rfl, rfl, hspace⟩

end Confined

/-! ### Commands -/

theorem membersOf_congr {space space' : Keyspace} {key : String}
    (h : space.get? key = space'.get? key) : membersOf space key = membersOf space' key := by
  unfold membersOf
  rw [h]

/-- A command on a set that answers by its members and leaves it as it is. -/
theorem confined_reads {key : String} (hkey : K key) (command : Command) (f : List String → α) :
    Confined K (send command fun space => (membersOf space key).map fun ms => (f ms, space)) := by
  refine .send (fun hact k _ => ?_) fun {space space'} hspace => ?_
  · obtain ⟨ms, -, heq⟩ := Option.map_eq_some_iff.mp hact
    rw [← (Prod.mk.inj heq).2]
  · rw [← membersOf_congr (hspace key hkey)]
    rcases membersOf space key with - | ms
    · exact Or.inl ⟨rfl, rfl⟩
    · exact Or.inr ⟨f ms, space, space', rfl, rfl, hspace⟩

/-- A command that makes a set of the one that is there. -/
theorem confined_writes {key : String} (hkey : K key) (command : Command)
    (g : List String → List String) :
    Confined K (send command fun space =>
      (membersOf space key).map fun ms => ((), withMembers space key (g ms))) := by
  refine .send (fun hact k hk => ?_) fun {space space'} hspace => ?_
  · obtain ⟨ms, -, heq⟩ := Option.map_eq_some_iff.mp hact
    rw [← (Prod.mk.inj heq).2, get?_withMembers, if_neg]
    rintro rfl
    exact hk hkey
  · rw [← membersOf_congr (hspace key hkey)]
    rcases membersOf space key with - | ms
    · exact Or.inl ⟨rfl, rfl⟩
    · refine Or.inr ⟨(), _, _, rfl, rfl, fun k hk => ?_⟩
      rw [get?_withMembers, get?_withMembers, hspace k hk]

theorem confined_set {key : String} (hkey : K key) (text : String) :
    Confined K (set key text) := by
  refine .send (fun hact k hk => ?_) fun {space space'} hspace =>
    Or.inr ⟨(), _, _, rfl, rfl, fun k hk => ?_⟩
  · rw [← (Prod.mk.inj (Option.some.inj hact)).2, Dict.get?_set, if_neg]
    rintro rfl
    exact hk hkey
  · rw [Dict.get?_set, Dict.get?_set, hspace k hk]

theorem confined_del {keys : List String} (hkeys : ∀ key ∈ keys, K key) :
    Confined K (del keys) := by
  have hget : ∀ (space : Keyspace) (k : String), (keys.foldl Dict.erase space).get? k =
      if k ∈ keys then none else space.get? k := fun space k => Dict.get?_foldl_erase _ _ _
  refine .send (fun hact k hk => ?_) fun {space space'} hspace =>
    Or.inr ⟨(), _, _, rfl, rfl, fun k hk => ?_⟩
  · rw [← (Prod.mk.inj (Option.some.inj hact)).2, hget, if_neg fun hmem => hk (hkeys k hmem)]
  · rw [hget, hget, hspace k hk]

theorem confined_exists? {key : String} (hkey : K key) : Confined K (exists? key) := by
  refine .send (fun hact _ _ => ?_) fun {space space'} hspace =>
    Or.inr ⟨space.contains key, space, space', rfl, ?_, hspace⟩
  · rw [← (Prod.mk.inj (Option.some.inj hact)).2]
  · have hcontains : space'.contains key = space.contains key := by
      rw [Bool.eq_iff_iff, Dict.contains_eq_true_iff, Dict.contains_eq_true_iff, hspace key hkey]
    rw [hcontains]

theorem confined_get {key : String} (hkey : K key) : Confined K (get key) := by
  refine .send (fun hact k _ => ?_) fun {space space'} hspace => ?_
  · split at hact <;> cases hact <;> rfl
  · rw [← hspace key hkey]
    rcases space.get? key with - | text | ms
    · exact Or.inr ⟨none, space, space', rfl, rfl, hspace⟩
    · exact Or.inr ⟨some text, space, space', rfl, rfl, hspace⟩
    · exact Or.inl ⟨rfl, rfl⟩

/-! ### Commands that take out -/

theorem get?_of_mem_membersOf {space : Keyspace} {key i : String} {ms : List String}
    (h : membersOf space key = some ms) (hi : i ∈ ms) : space.get? key = some (.members ms) := by
  unfold membersOf at h
  split at h
  · cases h
    cases hi
  · next hget =>
    cases h
    exact hget
  · cases h

theorem sRem_succeeds {key member : String} {s s' : Server}
    (h : (sRem key member).run s = (.ok (), s')) (ms : List String)
    (hms : s'.space.get? key = some (.members ms)) : member ∉ ms := by
  obtain ⟨before, -, hspace⟩ := Option.map_eq_some_iff.mp (send_succeeds h)
  rw [← (Prod.mk.inj hspace).2, get?_withMembers, if_pos rfl] at hms
  split at hms
  · cases hms
  · cases hms
    simp

theorem del_succeeds {keys : List String} {s s' : Server} (h : (del keys).run s = (.ok (), s'))
    (k : String) : s'.space.get? k = if k ∈ keys then none else s.space.get? k := by
  rw [← (Prod.mk.inj (Option.some.inj (send_succeeds h))).2]
  exact Dict.get?_foldl_erase _ _ _

end Redis

namespace Cache

open Redis (Confined Keeps Keyspace Server)

/-! ### Names under a prefix -/

/-- What is kept under a prefix. -/
inductive Name where
  /-- the identities behind a lookup key -/
  | lookup (key : String)
  /-- the text of an etag -/
  | value (identity : String)
  /-- the lookup keys that lead to an etag -/
  | aliases (identity : String)
  /-- every stored identity -/
  | index
  deriving DecidableEq, Repr

/-- How the name is written. -/
def Name.spelled (p : KeyPrefix) : Name → String
  | .lookup key => p.text ++ ":key:" ++ key
  | .value identity => p.text ++ ":etag:" ++ identity
  | .aliases identity => p.text ++ ":aliases:" ++ identity
  | .index => p.text ++ ":etags"

/-- The key is one of those under the prefix. -/
def KeyPrefix.Owns (p : KeyPrefix) (k : String) : Prop :=
  ∃ name : Name, name.spelled p = k

section

variable (p : KeyPrefix)

theorem owns_lookup (key : String) : p.Owns (p.lookup key) :=
  ⟨.lookup key, rfl⟩

theorem owns_value (identity : String) : p.Owns (p.value identity) :=
  ⟨.value identity, rfl⟩

theorem owns_aliases (identity : String) : p.Owns (p.aliases identity) :=
  ⟨.aliases identity, rfl⟩

theorem owns_index : p.Owns p.index :=
  ⟨.index, rfl⟩

/-- No two names are written alike. -/
theorem spelled_injective : Function.Injective (Name.spelled p) := by
  rintro (k | i | i | -) (k' | i' | i' | -) h
  · exact congrArg _ (p.lookup_inj.mp h)
  · exact absurd h (p.lookup_ne_value k i')
  · exact absurd h (p.lookup_ne_aliases k i')
  · exact absurd h (p.lookup_ne_index k)
  · exact absurd h.symm (p.lookup_ne_value k' i)
  · exact congrArg _ (p.value_inj.mp h)
  · exact absurd h (p.value_ne_aliases i i')
  · exact absurd h (p.value_ne_index i)
  · exact absurd h.symm (p.lookup_ne_aliases k' i)
  · exact absurd h.symm (p.value_ne_aliases i' i)
  · exact congrArg _ (p.aliases_inj.mp h)
  · exact absurd h (p.aliases_ne_index i)
  · exact absurd h.symm (p.lookup_ne_index k')
  · exact absurd h.symm (p.value_ne_index i')
  · exact absurd h.symm (p.aliases_ne_index i')
  · rfl

/-! ### Scripts -/

/-- The names of an addition. -/
def addedNames (key : String) (etag : WeakEtag) : List Name :=
  [.lookup key, .value etag.identity, .aliases etag.identity, .index]

theorem confined_add (key : String) (etag : WeakEtag) :
    Confined (· ∈ (addedNames key etag).map (Name.spelled p)) (SharedStore.add p key etag) := by
  have hmem : ∀ name ∈ addedNames key etag,
      name.spelled p ∈ (addedNames key etag).map (Name.spelled p) :=
    fun name hname => List.mem_map_of_mem hname
  exact (Confined.idle .connect).bind fun _ => (Confined.idle .evalSha).bind fun _ =>
    (Redis.confined_writes (hmem (.lookup key) (by simp [addedNames])) .sAdd _).bind fun _ =>
    (Redis.confined_set (hmem (.value etag.identity) (by simp [addedNames])) _).bind fun _ =>
    (Redis.confined_writes (hmem (.aliases etag.identity) (by simp [addedNames])) .sAdd _).bind
      fun _ => Redis.confined_writes (hmem .index (by simp [addedNames])) .sAdd _

theorem confined_drop (identity : String) : Confined p.Owns (SharedStore.drop p identity) := by
  refine (Redis.confined_reads (owns_aliases p identity) .sMembers _).bind fun keys => ?_
  refine (Confined.forM fun key => Redis.confined_writes (owns_lookup p key) .sRem _).bind
    fun _ => ?_
  refine (Redis.confined_del ?_).bind fun _ =>
    Redis.confined_writes (owns_index p) .sRem _
  intro key hkey
  rw [List.mem_pair] at hkey
  rcases hkey with rfl | rfl
  exacts [owns_aliases p identity, owns_value p identity]

theorem confined_remove (key : String) : Confined p.Owns (SharedStore.remove p key) := by
  refine (Confined.idle .connect).bind fun _ => (Confined.idle .evalSha).bind fun _ =>
    (Redis.confined_reads (owns_lookup p key) .sMembers _).bind fun identities => ?_
  split
  · exact .pure false
  · refine (Confined.forM (confined_drop p)).bind fun _ => (Redis.confined_del ?_).bind fun _ =>
      .pure true
    intro k hk
    rw [List.mem_singleton.mp hk]
    exact owns_lookup p key

theorem confined_contains (key : String) :
    Confined (· = p.lookup key) (SharedStore.contains p key) :=
  (Confined.idle .connect).bind fun _ => Redis.confined_exists? rfl

/-- The text of an etag is read under the identity that stands behind the key. -/
theorem confined_getText (key : String) :
    Confined (fun k => k = p.lookup key ∨ ∃ i, k = p.value i) (SharedStore.getText p key) := by
  refine (Confined.idle .connect).bind fun _ =>
    (Redis.confined_reads (Or.inl rfl) .sRandMember _).bind fun identity => ?_
  rcases identity with - | identity
  · exact .pure none
  · exact Redis.confined_get (Or.inr ⟨identity, rfl⟩)

theorem confined_size : Confined (· = p.index) (SharedStore.size p) :=
  (Confined.idle .connect).bind fun _ => Redis.confined_reads (K := (· = p.index)) rfl .sCard _

/-- Under each of its names, an addition that succeeds has put what belongs there. -/
theorem SharedStore.add_fills {p : KeyPrefix} {s s' : Server} {key : String} {etag : WeakEtag}
    (h : (SharedStore.add p key etag).run s = (.ok (), s')) :
    (∃ ms, s'.space.get? (p.lookup key) = some (.members ms) ∧ etag.identity ∈ ms) ∧
      s'.space.get? (p.value etag.identity) = some (.text etag.text) ∧
      (∃ ms, s'.space.get? (p.aliases etag.identity) = some (.members ms) ∧ key ∈ ms) ∧
      ∃ ms, s'.space.get? p.index = some (.members ms) ∧ etag.identity ∈ ms := by
  obtain ⟨hlookup, hvalue⟩ := SharedStore.add_succeeds h
  obtain ⟨⟨⟩, s₀, -, h⟩ := Redis.bind_succeeds h
  obtain ⟨⟨⟩, s₁, -, h⟩ := Redis.bind_succeeds h
  obtain ⟨⟨⟩, s₂, -, h⟩ := Redis.bind_succeeds h
  obtain ⟨⟨⟩, s₃, -, h⟩ := Redis.bind_succeeds h
  obtain ⟨⟨⟩, s₄, haliases, hindex⟩ := Redis.bind_succeeds h
  obtain ⟨⟨ms, hms, hmem⟩, -⟩ := Redis.sAdd_succeeds haliases
  obtain ⟨hstored, hframe⟩ := Redis.sAdd_succeeds hindex
  refine ⟨hlookup, hvalue, ⟨ms, ?_, hmem⟩, hstored⟩
  rw [hframe _ (p.aliases_ne_index _), hms]

/-! ### Removals that succeed -/

/-- Nothing is kept of the identity. -/
structure Gone (p : KeyPrefix) (i : String) (space : Keyspace) : Prop where
  value : space.get? (p.value i) = none
  aliases : space.get? (p.aliases i) = none
  index : ∀ ms, space.get? p.index = some (.members ms) → i ∉ ms

variable {p}

theorem Gone.erase {i : String} {space : Keyspace} (h : Gone p i space) (key : String) :
    Gone p i (space.erase key) where
  value := by rw [Dict.get?_erase, h.value, ite_self]
  aliases := by rw [Dict.get?_erase, h.aliases, ite_self]
  index ms hms := by
    rw [Dict.get?_erase] at hms
    split at hms
    · cases hms
    · exact h.index ms hms

theorem keeps_gone_sRem {i key : String} (hvalue : p.value i ≠ key) (haliases : p.aliases i ≠ key)
    (member : String) : Keeps (Gone p i) (Redis.sRem key member) := by
  refine .send fun {space _ _} h hact => ?_
  obtain ⟨before, hbefore, heq⟩ := Option.map_eq_some_iff.mp hact
  rw [← (Prod.mk.inj heq).2]
  refine ⟨?_, ?_, fun ms hms => ?_⟩
  · rw [Redis.get?_withMembers, if_neg hvalue, h.value]
  · rw [Redis.get?_withMembers, if_neg haliases, h.aliases]
  · rw [Redis.get?_withMembers] at hms
    split at hms
    · next hkey =>
      split at hms
      · cases hms
      · cases hms
        -- what is left in the index was there before
        intro hi
        have hbefore' := List.mem_of_mem_filter hi
        have hget := Redis.get?_of_mem_membersOf hbefore hbefore'
        rw [← hkey] at hget
        exact h.index before hget hbefore'
    · exact h.index ms hms

theorem keeps_gone_drop (i j : String) : Keeps (Gone p i) (SharedStore.drop p j) :=
  (keeps_sMembers _).bind fun _ =>
    (Keeps.forM fun key => keeps_gone_sRem (p.lookup_ne_value key i).symm
      (p.lookup_ne_aliases key i).symm _).bind fun _ =>
    (keeps_del (fun key h => h.erase key) _).bind fun _ =>
    keeps_gone_sRem (p.value_ne_index i) (p.aliases_ne_index i) _

/-- Nothing is kept of an identity that was dropped. -/
theorem gone_of_drop {i : String} {s s' : Server}
    (h : (SharedStore.drop p i).run s = (.ok (), s')) : Gone p i s'.space := by
  obtain ⟨keys, s₁, -, h⟩ := Redis.bind_succeeds h
  obtain ⟨⟨⟩, s₂, -, h⟩ := Redis.bind_succeeds h
  obtain ⟨⟨⟩, s₃, hdel, hindex⟩ := Redis.bind_succeeds h
  have hframe := (Redis.confined_writes (K := (· = p.index)) rfl .sRem (·.filter (· ≠ i))).frame s₃
  have hrun : ((Redis.sRem p.index i).run s₃).2 = s' := congrArg Prod.snd hindex
  have hothers : ∀ k, k ≠ p.index → s'.space.get? k = s₃.space.get? k := by
    intro k hk
    rw [← hrun]
    exact hframe k hk
  refine ⟨?_, ?_, Redis.sRem_succeeds hindex⟩
  · rw [hothers _ (p.value_ne_index i), Redis.del_succeeds hdel, if_pos (by simp)]
  · rw [hothers _ (p.aliases_ne_index i), Redis.del_succeeds hdel, if_pos (by simp)]

theorem gone_of_drops {identities : List String} {s s' : Server}
    (h : (identities.forM (SharedStore.drop p)).run s = (.ok (), s')) :
    ∀ i ∈ identities, Gone p i s'.space := by
  induction identities generalizing s with
  | nil => simp
  | cons j identities ih =>
    obtain ⟨⟨⟩, mid, hdrop, hrest⟩ := Redis.bind_succeeds h
    have hkept : ∀ i, Gone p i mid.space → Gone p i s'.space := by
      intro i hgone
      have hkeeps : Gone p i ((identities.forM (SharedStore.drop p)).run mid).2.space :=
        (Keeps.forM (keeps_gone_drop i) mid hgone).1
      rw [hrest] at hkeeps
      exact hkeeps
    intro i hi
    rcases List.mem_cons.mp hi with rfl | hi
    · exact hkept i (gone_of_drop hdrop)
    · exact ih hrest i hi

/-- A removal that found something has emptied its names: nothing is behind the key, and nothing is
kept of an identity that was. -/
theorem SharedStore.remove_empties {key : String} {s s' : Server}
    (h : (SharedStore.remove p key).run s = (.ok true, s')) :
    s'.space.get? (p.lookup key) = none ∧
      ∀ ms, s.space.get? (p.lookup key) = some (.members ms) → ∀ i ∈ ms, Gone p i s'.space := by
  obtain ⟨⟨⟩, s₀, hconnect, h⟩ := Redis.bind_succeeds h
  obtain ⟨⟨⟩, s₁, hstart, h⟩ := Redis.bind_succeeds h
  obtain ⟨identities, s₂, hread, h⟩ := Redis.bind_succeeds h
  have hspace : s₁.space = s.space :=
    (Redis.idle_succeeds hstart).trans (Redis.idle_succeeds hconnect)
  obtain ⟨members, hmembers, heq⟩ := Option.map_eq_some_iff.mp (Redis.send_succeeds hread)
  obtain rfl : members = identities := (Prod.mk.inj heq).1
  split at h
  · cases h
  · obtain ⟨⟨⟩, s₃, hdrops, h⟩ := Redis.bind_succeeds h
    obtain ⟨⟨⟩, s₄, hdel, hpure⟩ := Redis.bind_succeeds h
    obtain rfl : s₄ = s' := congrArg Prod.snd hpure
    have hkey : s₄.space.get? (p.lookup key) = none := by
      rw [Redis.del_succeeds hdel, if_pos (List.mem_singleton.mpr rfl)]
    refine ⟨hkey, fun ms hms i hi => ?_⟩
    rw [hspace, Redis.membersOf, hms] at hmembers
    obtain rfl : ms = members := Option.some.inj hmembers
    have hgone := gone_of_drops hdrops i hi
    have hkeeps := (keeps_del (fun key h => h.erase key) [p.lookup key] s₃ hgone).1
    rw [hdel] at hkeeps
    exact hkeeps

end

end Cache

end FreshTag
