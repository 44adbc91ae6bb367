/-
FreshTag/Proofs/Cache/Typed.lean

A half-done script never leaves a text where a script expects a set: texts are
only under the keys of etags (`Typed`), whatever fails (`stable_typed`).  So
once the server refuses nothing any more, no script meets a value of the wrong
kind, and a key that leads to an identity is found and takes the etag out when
it is removed (`Store.On.reaches`).
-/
import FreshTag.Proofs.Cache.Answers

namespace FreshTag.Cache

open Redis (Keyspace Yields)

variable {p : KeyPrefix} {space : Keyspace}

/-! ### Typed keyspaces -/

/-- Texts are only under the keys of etags. -/
def Typed (p : KeyPrefix) (space : Keyspace) : Prop :=
  ∀ key text, space.get? key = some (.text text) → ∃ i, key = p.value i

theorem typed_empty (p : KeyPrefix) : Typed p {} := by
  intro key text h
  cases h

theorem stable_typed (p : KeyPrefix) : Stable p (Typed p) where
  erase key h := by
    intro k text hk
    rw [Dict.get?_erase] at hk
    split at hk
    · cases hk
    · exact h k text hk
  withMembers key ms h := by
    intro k text hk
    rw [Redis.get?_withMembers] at hk
    split at hk
    · split at hk <;> cases hk
    · exact h k text hk
  setText i text h := by
    intro k t hk
    rw [Dict.get?_set] at hk
    split at hk
    · next hkey => exact ⟨i, hkey⟩
    · exact h k t hk

/-- A key that is none of an etag holds a set, which may be empty. -/
theorem Typed.membersOf (h : Typed p space) {key : String} (hkey : ∀ i, key ≠ p.value i) :
    ∃ ms, Redis.membersOf space key = some ms := by
  unfold Redis.membersOf
  split
  · exact ⟨[], rfl⟩
  · next ms _ => exact ⟨ms, rfl⟩
  · next text htext =>
    obtain ⟨i, hi⟩ := h key text htext
    exact absurd hi (hkey i)

/-! ### Removing on a typed keyspace -/

/-- The keyspace stays typed, and no etag is stored that was not stored before. -/
structure Fades (p : KeyPrefix) (space space' : Keyspace) : Prop where
  typed : Typed p space'
  value : ∀ {i : String}, space.get? (p.value i) = none → space'.get? (p.value i) = none

theorem Fades.trans {space₁ space₂ space₃ : Keyspace} (h : Fades p space₁ space₂)
    (h' : Fades p space₂ space₃) : Fades p space₁ space₃ :=
  ⟨h'.typed, fun hi => h'.value (h.value hi)⟩

namespace Typed

variable (h : Typed p space)

include h

theorem sMembers {key : String} (hkey : ∀ i, key ≠ p.value i) :
    ∃ ms, Yields (Redis.sMembers key) space ms space := by
  obtain ⟨ms, hms⟩ := h.membersOf hkey
  exact ⟨ms, .send (by rw [hms]; rfl)⟩

theorem sRem {key : String} (hkey : ∀ i, key ≠ p.value i) (member : String) :
    ∃ space', Yields (Redis.sRem key member) space () space' ∧ Fades p space space' := by
  obtain ⟨ms, hms⟩ := h.membersOf hkey
  refine ⟨Redis.withMembers space key (ms.filter (· ≠ member)), .send (by rw [hms]; rfl),
    (stable_typed p).withMembers _ _ h, fun {i} hi => ?_⟩
  rw [Redis.get?_withMembers, if_neg (hkey i).symm]
  exact hi

theorem unlink (identity : String) (keys : List String) :
    ∃ space', Yields (keys.forM fun key => Redis.sRem (p.lookup key) identity) space () space' ∧
      Fades p space space' := by
  induction keys generalizing space with
  | nil => exact ⟨space, .pure (), h, id⟩
  | cons key keys ih =>
    obtain ⟨s₁, hrun₁, h₁⟩ := h.sRem (p.lookup_ne_value key) identity
    obtain ⟨s₂, hrun₂, h₂⟩ := ih h₁.typed
    exact ⟨s₂, hrun₁.bind hrun₂, h₁.trans h₂⟩

/-- Dropping an identity takes its text out. -/
theorem drop (identity : String) :
    ∃ space', Yields (SharedStore.drop p identity) space () space' ∧ Fades p space space' ∧
      space'.get? (p.value identity) = none := by
  obtain ⟨aliases, hrun₁⟩ := h.sMembers fun i => (p.value_ne_aliases i identity).symm
  obtain ⟨s₂, hrun₂, h₂⟩ := h.unlink identity aliases
  obtain ⟨s₃, hrun₃, hget₃⟩ := Redis.yields_del [p.aliases identity, p.value identity] s₂
  -- the text is gone from here on, and what is deleted leaves no text behind
  have h₃ : Fades p s₂ s₃ := by
    refine ⟨?_, fun {i} hi => ?_⟩
    · intro key text hkey
      rw [hget₃] at hkey
      split at hkey
      · cases hkey
      · exact h₂.typed key text hkey
    · rw [hget₃, hi, ite_self]
  obtain ⟨s₄, hrun₄, h₄⟩ := h₃.typed.sRem (fun i => (p.value_ne_index i).symm) identity
  refine ⟨s₄, hrun₁.bind (hrun₂.bind (hrun₃.bind hrun₄)), h₂.trans (h₃.trans h₄), h₄.value ?_⟩
  rw [hget₃, if_pos (by simp)]

theorem drop_all (identities : List String) :
    ∃ space', Yields (identities.forM (SharedStore.drop p)) space () space' ∧
      Fades p space space' ∧ ∀ i ∈ identities, space'.get? (p.value i) = none := by
  induction identities generalizing space with
  | nil => exact ⟨space, .pure (), ⟨h, id⟩, by simp⟩
  | cons identity identities ih =>
    obtain ⟨s₁, hrun₁, h₁, hgone⟩ := h.drop identity
    obtain ⟨s₂, hrun₂, h₂, hall⟩ := ih h₁.typed
    refine ⟨s₂, hrun₁.bind hrun₂, h₁.trans h₂, fun i hi => ?_⟩
    rcases List.mem_cons.mp hi with rfl | hi
    exacts [h₂.value hgone, hall i hi]

/-- Removing a key that leads to an identity takes the text of the identity out. -/
theorem remove {key i : String} {ms : List String}
    (hms : space.get? (p.lookup key) = some (.members ms)) (hi : i ∈ ms) :
    ∃ space', Yields (SharedStore.remove p key) space true space' ∧
      space'.get? (p.value i) = none := by
  have hmembers : Redis.membersOf space (p.lookup key) = some ms := by
    simp [Redis.membersOf, hms]
  have hsome : ms.isEmpty = false := by
    rw [List.isEmpty_eq_false_iff]
    exact List.ne_nil_of_mem hi
  -- every identity behind the key is dropped, `i` among them
  obtain ⟨s₂, hrun₂, -, hgone⟩ := h.drop_all ms
  obtain ⟨s₃, hrun₃, hget₃⟩ := Redis.yields_del [p.lookup key] s₂
  have hrun₁ : Yields (Redis.sMembers (p.lookup key)) space ms space :=
    .send (by rw [hmembers]; rfl)
  refine ⟨s₃, (Yields.idle .connect space).bind <| (Yields.idle .evalSha space).bind <|
    hrun₁.bind ?_, ?_⟩
  · rw [hsome]
    exact hrun₂.bind (hrun₃.bind (.pure true))
  · rw [hget₃, hgone i hi, ite_self]

end Typed

/-! ### Working again -/

/-- The same store on a server that refuses nothing any more. -/
def Store.mended : Store → Store
  | .shared p server => .shared p { server with refuses := fun _ _ => false }
  | store => store

/-- Once the server refuses nothing any more, a key that leads to an identity is found, removing it
says so, and nothing is stored under the identity any more. -/
theorem Store.On.reaches {refuses : Nat → Redis.Command → Bool} {store : Store} {c : Cache}
    (h : store.On p (Typed p) refuses) (hc : c.store = store.mended) {key i : String}
    (hleads : store.Leads key i) :
    ((Cache.holds key).run c).1 = .ok true ∧ ((Cache.remove key).run c).1 = .ok true ∧
      ∀ etag, ¬ ((Cache.remove key).run c).2.store.Stores i etag := by
  obtain ⟨server, rfl, htyped, -⟩ := h
  obtain ⟨ms, hms, hi⟩ := hleads
  have hserver : OnServer p server.space c.store := ⟨server.received, hc⟩
  obtain ⟨space', hrun, hgone⟩ := htyped.remove hms hi
  obtain ⟨hremoved, received', hafter⟩ := Serves.remove hrun c hserver
  have hworking : c.store.Working := by
    rw [hc]
    rfl
  have hleads : c.store.Leads key i := by
    rw [hc]
    exact ⟨ms, hms, hi⟩
  refine ⟨holds_of_leads hworking hleads, hremoved, fun etag hst => ?_⟩
  rw [hafter] at hst
  have htext : space'.get? (p.value i) = some (.text etag.text) := hst
  rw [hgone] at htext
  cases htext

end FreshTag.Cache
