/-
FreshTag/Proofs/Cache/Commands.lean

Commands to a server that refuses nothing.  `Yields run space x space'` says
that the commands succeed with `x` and turn one keyspace into the other.

What a key holds as a set is said by its members alone (`HoldsSet`): the list
behind it is in strict order, so it has no repetitions, and it is never empty.
Every command on sets is one lemma in these terms, with what it does to the key
that it names and that it leaves all other keys as they are.
-/
import FreshTag.Cache.Redis
import Mathlib.Data.String.Basic

namespace FreshTag.Redis

/-- The commands turn the keyspace `space` into `space'` and answer `x`, whatever was received
before. -/
def Yields {α : Type} (run : Run α) (space : Keyspace) (x : α) (space' : Keyspace) : Prop :=
  ∀ received, ∃ received', run.run { space := space, received := received } =
    (.ok x, { space := space', received := received' })

namespace Yields

variable {α β : Type} {space mid space' : Keyspace}

theorem pure (x : α) : Yields (Pure.pure x) space x space :=
  fun received => ⟨received, rfl⟩

theorem bind {run : Run α} {f : α → Run β} {x : α} {y : β} (h : Yields run space x mid)
    (hf : Yields (f x) mid y space') : Yields (run >>= f) space y space' := by
  intro received
  obtain ⟨received', hrun⟩ := h received
  obtain ⟨received'', hfx⟩ := hf received'
  refine ⟨received'', ?_⟩
  show ExceptT.bindCont f (run.run _).1 (run.run _).2 = _
  rw [hrun]
  exact hfx

/-- A command that is not refused does what it does to the keyspace. -/
theorem send {command : Command} {act : Keyspace → Option (α × Keyspace)} {x : α}
    (h : act space = some (x, space')) : Yields (send command act) space x space' := by
  intro received
  refine ⟨received + 1, ?_⟩
  show Redis.send command act _ = _
  simp [Redis.send, h]

/-- A command that only asks for an answer. -/
theorem idle (command : Command) (space : Keyspace) :
    Yields (Redis.send command fun space => some ((), space)) space () space :=
  .send rfl

end Yields

/-! ### Sorted lists -/

theorem mem_insertSorted {x y : String} {ys : List String} :
    y ∈ insertSorted x ys ↔ y = x ∨ y ∈ ys := by
  induction ys with
  | nil => simp [insertSorted]
  | cons z zs ih =>
    unfold insertSorted
    split
    · next h => simp [h]
    · split
      · simp
      · rw [List.mem_cons, ih, List.mem_cons]
        tauto

theorem pairwise_insertSorted {x : String} {ys : List String} (h : ys.Pairwise (· < ·)) :
    (insertSorted x ys).Pairwise (· < ·) := by
  induction ys with
  | nil => simp [insertSorted]
  | cons z zs ih =>
    rw [List.pairwise_cons] at h
    unfold insertSorted
    split
    · exact List.pairwise_cons.mpr h
    · next hne =>
      split
      -- `x` comes to stand before `z`, or somewhere behind it
      · next hlt =>
        refine List.pairwise_cons.mpr ⟨?_, List.pairwise_cons.mpr h⟩
        intro y hy
        rcases List.mem_cons.mp hy with rfl | hy
        exacts [hlt, lt_trans hlt (h.1 y hy)]
      · next hlt =>
        refine List.pairwise_cons.mpr ⟨?_, ih h.2⟩
        intro y hy
        rcases mem_insertSorted.mp hy with rfl | hy
        exacts [lt_of_le_of_ne (not_lt.mp hlt) (Ne.symm hne), h.1 y hy]

/-! ### Sets -/

/-- The key holds the set of all texts with the property, as a list in order; if there are none,
the key is not there. -/
def HoldsSet (space : Keyspace) (key : String) (P : String → Prop) : Prop :=
  ∃ ms : List String, space.get? key = (if ms = [] then none else some (.members ms)) ∧
    ms.Pairwise (· < ·) ∧ ∀ x, x ∈ ms ↔ P x

theorem holdsSet_empty (key : String) : HoldsSet {} key fun _ => False :=
  ⟨[], rfl, List.Pairwise.nil, by simp⟩

theorem get?_withMembers (space : Keyspace) (key : String) (ms : List String) (k : String) :
    (withMembers space key ms).get? k =
      if k = key then (if ms = [] then none else some (.members ms)) else space.get? k := by
  unfold withMembers
  split
  · rw [Dict.get?_erase]
  · rw [Dict.get?_set]

theorem membersOf_eq {space : Keyspace} {key : String} {ms : List String}
    (h : space.get? key = if ms = [] then none else some (.members ms)) :
    membersOf space key = some ms := by
  unfold membersOf
  rw [h]
  by_cases hms : ms = [] <;> simp [hms]

namespace HoldsSet

variable {space space' : Keyspace} {key : String} {P Q : String → Prop}

theorem congr (h : HoldsSet space key P) (hget : space'.get? key = space.get? key)
    (hPQ : ∀ x, P x ↔ Q x) : HoldsSet space' key Q := by
  obtain ⟨ms, hms, hsorted, hmem⟩ := h
  exact ⟨ms, hget.trans hms, hsorted, fun x => (hmem x).trans (hPQ x)⟩

theorem sAdd (h : HoldsSet space key P) (member : String) :
    ∃ space', Yields (sAdd key member) space () space' ∧
      HoldsSet space' key (fun x => x = member ∨ P x) ∧
      ∀ k, k ≠ key → space'.get? k = space.get? k := by
  obtain ⟨ms, hms, hsorted, hmem⟩ := h
  refine ⟨withMembers space key (insertSorted member ms), .send ?_, ?_, ?_⟩
  · rw [membersOf_eq hms]
    rfl
  · refine ⟨insertSorted member ms, ?_, pairwise_insertSorted hsorted, ?_⟩
    · rw [get?_withMembers, if_pos rfl]
    · intro x
      rw [mem_insertSorted, hmem]
  · intro k hk
    rw [get?_withMembers, if_neg hk]

theorem sRem (h : HoldsSet space key P) (member : String) :
    ∃ space', Yields (sRem key member) space () space' ∧
      HoldsSet space' key (fun x => P x ∧ x ≠ member) ∧
      ∀ k, k ≠ key → space'.get? k = space.get? k := by
  obtain ⟨ms, hms, hsorted, hmem⟩ := h
  refine ⟨withMembers space key (ms.filter (· ≠ member)), .send ?_, ?_, ?_⟩
  · rw [membersOf_eq hms]
    rfl
  · refine ⟨ms.filter (· ≠ member), ?_, hsorted.filter _, ?_⟩
    · rw [get?_withMembers, if_pos rfl]
    · intro x
      simp [hmem]
  · intro k hk
    rw [get?_withMembers, if_neg hk]

/-- All members are listed, without repetitions. -/
theorem sMembers (h : HoldsSet space key P) :
    ∃ ms, Yields (sMembers key) space ms space ∧ ms.Nodup ∧ ∀ x, x ∈ ms ↔ P x := by
  obtain ⟨ms, hms, hsorted, hmem⟩ := h
  refine ⟨ms, .send ?_, hsorted.imp ne_of_lt, hmem⟩
  rw [membersOf_eq hms]
  rfl

theorem sCard (h : HoldsSet space key P) :
    ∃ ms : List String, Yields (sCard key) space ms.length space ∧ ms.Nodup ∧
      ∀ x, x ∈ ms ↔ P x := by
  obtain ⟨ms, hms, hsorted, hmem⟩ := h
  refine ⟨ms, .send ?_, hsorted.imp ne_of_lt, hmem⟩
  rw [membersOf_eq hms]
  rfl

/-- The key is there exactly if there is a member. -/
theorem exists? (h : HoldsSet space key P) :
    ∃ found, Yields (exists? key) space found space ∧ (found = true ↔ ∃ x, P x) := by
  obtain ⟨ms, hms, -, hmem⟩ := h
  refine ⟨space.contains key, .send rfl, ?_⟩
  simp only [← hmem, Dict.contains, hms]
  rcases ms with - | ⟨m, ms⟩
  · simp
  · simp

/-- A member is chosen, if there is one. -/
theorem sRandMember (h : HoldsSet space key P) :
    ∃ chosen, Yields (sRandMember key) space chosen space ∧
      (chosen = none ↔ ∀ x, ¬ P x) ∧ ∀ x, chosen = some x → P x := by
  obtain ⟨ms, hms, -, hmem⟩ := h
  refine ⟨ms.head?, .send ?_, ?_, ?_⟩
  · rw [membersOf_eq hms]
    rfl
  · rw [List.head?_eq_none_iff, List.eq_nil_iff_forall_not_mem]
    simp only [hmem]
  · intro x hx
    exact (hmem x).mp (List.mem_of_head? hx)

end HoldsSet

/-! ### Texts -/

theorem yields_set (key text : String) (space : Keyspace) :
    Yields (set key text) space () (space.set key (.text text)) :=
  .send rfl

theorem yields_get_text {space : Keyspace} {key text : String}
    (h : space.get? key = some (.text text)) : Yields (get key) space (some text) space := by
  refine .send ?_
  rw [h]

/-- All the keys are gone, and no others. -/
theorem yields_del (keys : List String) (space : Keyspace) :
    ∃ space', Yields (del keys) space () space' ∧
      ∀ k, space'.get? k = if k ∈ keys then none else space.get? k := by
  refine ⟨keys.foldl Dict.erase space, .send rfl, ?_⟩
  intro k
  induction keys generalizing space with
  | nil => simp
  | cons key keys ih =>
    rw [List.foldl_cons, ih, Dict.get?_erase]
    by_cases hk : k = key <;> simp [hk]

end FreshTag.Redis
