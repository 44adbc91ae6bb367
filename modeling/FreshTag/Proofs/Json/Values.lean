/-
FreshTag/Proofs/Json/Values.lean

JSON values as trees: the parts of a value, itself included, and how many
arrays and objects are open in it at once.  What is to hold of every value is
proved by `Value.induction`, from the items of an array and the values of the
members of an object.

The members of an object stand in the strict order of their keys, so that
building an object from them gives them back (`ofList_of_sorted`).
-/
import FreshTag.Json.Value
import Mathlib.Data.List.Induction
import Mathlib.Data.String.Basic

namespace FreshTag.Json

namespace Value

/-- A statement about values, from the values inside of each. -/
theorem induction {motive : Value → Prop} (null : motive .null) (bool : ∀ b, motive (.bool b))
    (number : ∀ n, motive (.number n)) (string : ∀ s, motive (.string s))
    (array : ∀ items, (∀ v ∈ items, motive v) → motive (.array items))
    (object : ∀ members, (∀ m ∈ members, motive m.2) → motive (.object members)) (v : Value) :
    motive v := by
  refine @Value.rec motive (fun items => ∀ v ∈ items, motive v)
    (fun members => ∀ m ∈ members, motive m.2) (fun m => motive m.2)
    null bool number string array object nofun ?_ nofun ?_ ?_ v
  · intro v items hv hitems
    exact List.forall_mem_cons.mpr ⟨hv, hitems⟩
  · intro m members hm hmembers
    exact List.forall_mem_cons.mpr ⟨hm, hmembers⟩
  · exact fun _ _ h => h

end Value

mutual

/-- The value and all values inside of it. -/
def Value.parts : Value → List Value
  | .array items => .array items :: partsOfItems items
  | .object members => .object members :: partsOfMembers members
  | v => [v]

/-- The parts of all items. -/
def partsOfItems : List Value → List Value
  | [] => []
  | v :: vs => v.parts ++ partsOfItems vs

/-- The parts of the values of all members. -/
def partsOfMembers : Members → List Value
  | [] => []
  | (_, v) :: ms => v.parts ++ partsOfMembers ms

end

mutual

/-- How many arrays and objects are open at once. -/
def Value.depth : Value → Nat
  | .array items => depthOfItems items + 1
  | .object members => depthOfMembers members + 1
  | _ => 0

/-- The greatest depth of an item. -/
def depthOfItems : List Value → Nat
  | [] => 0
  | v :: vs => max v.depth (depthOfItems vs)

/-- The greatest depth of the value of a member. -/
def depthOfMembers : Members → Nat
  | [] => 0
  | (_, v) :: ms => max v.depth (depthOfMembers ms)

end

theorem mem_parts_self (v : Value) : v ∈ v.parts := by
  cases v <;> exact List.mem_cons_self

theorem mem_partsOfItems {u : Value} {items : List Value} :
    u ∈ partsOfItems items ↔ ∃ v ∈ items, u ∈ v.parts := by
  induction items with
  | nil => simp [partsOfItems]
  | cons v vs ih => simp [partsOfItems, ih]

theorem mem_partsOfMembers {u : Value} {members : Members} :
    u ∈ partsOfMembers members ↔ ∃ m ∈ members, u ∈ m.2.parts := by
  induction members with
  | nil => simp [partsOfMembers]
  | cons m ms ih => simp [partsOfMembers, ih]

theorem depthOfItems_le {items : List Value} {d : Nat} :
    depthOfItems items ≤ d ↔ ∀ v ∈ items, v.depth ≤ d := by
  induction items with
  | nil => simp [depthOfItems]
  | cons v vs ih => simp [depthOfItems, ih]

theorem depthOfMembers_le {members : Members} {d : Nat} :
    depthOfMembers members ≤ d ↔ ∀ m ∈ members, m.2.depth ≤ d := by
  induction members with
  | nil => simp [depthOfMembers]
  | cons m ms ih => simp [depthOfMembers, ih]

/-- The parts of an array are itself and the parts of its items. -/
theorem forall_parts_array {P : Value → Prop} {items : List Value} :
    (∀ u ∈ (Value.array items).parts, P u) ↔
      P (.array items) ∧ ∀ v ∈ items, ∀ u ∈ v.parts, P u := by
  rw [Value.parts, List.forall_mem_cons]
  refine and_congr_right fun _ => ⟨fun h v hv u hu => h u (mem_partsOfItems.mpr ⟨v, hv, hu⟩), ?_⟩
  intro h u hu
  obtain ⟨v, hv, hu⟩ := mem_partsOfItems.mp hu
  exact h v hv u hu

/-- The parts of an object are itself and the parts of the values of its members. -/
theorem forall_parts_object {P : Value → Prop} {members : Members} :
    (∀ u ∈ (Value.object members).parts, P u) ↔
      P (.object members) ∧ ∀ u ∈ partsOfMembers members, P u := by
  rw [Value.parts, List.forall_mem_cons]

theorem forall_partsOfMembers {P : Value → Prop} {members : Members} :
    (∀ u ∈ partsOfMembers members, P u) ↔ ∀ m ∈ members, ∀ u ∈ m.2.parts, P u := by
  refine ⟨fun h m hm u hu => h u (mem_partsOfMembers.mpr ⟨m, hm, hu⟩), fun h u hu => ?_⟩
  obtain ⟨m, hm, hu⟩ := mem_partsOfMembers.mp hu
  exact h m hm u hu

/-! ### Members in order -/

namespace Members

/-- The keys stand in order, each once. -/
def Sorted (ms : Members) : Prop :=
  ms.Pairwise fun m n => m.1 < n.1

theorem mem_insert {key : String} {value : Value} {ms : Members} {m : String × Value}
    (h : m ∈ insert key value ms) : m = (key, value) ∨ m ∈ ms := by
  induction ms with
  | nil => exact .inl (List.mem_singleton.mp h)
  | cons n ms ih =>
    unfold insert at h
    grind

theorem sorted_insert (key : String) (value : Value) {ms : Members} (h : Sorted ms) :
    Sorted (insert key value ms) := by
  induction ms with
  | nil => exact List.pairwise_singleton ..
  | cons n ms ih =>
    obtain ⟨k, v⟩ := n
    obtain ⟨hfirst, hrest⟩ := List.pairwise_cons.mp h
    unfold insert
    split
    · next heq => exact List.pairwise_cons.mpr ⟨heq ▸ hfirst, hrest⟩
    · next hne =>
      split
      · next hlt =>
        refine List.pairwise_cons.mpr ⟨fun m hm => ?_, h⟩
        rcases List.mem_cons.mp hm with rfl | hm
        · exact hlt
        · exact lt_trans hlt (hfirst m hm)
      · next hnot =>
        refine List.pairwise_cons.mpr ⟨fun m hm => ?_, ih hrest⟩
        rcases mem_insert hm with rfl | hm
        · exact lt_of_le_of_ne (not_lt.mp hnot) hne
        · exact hfirst m hm

/-- A key behind all others is put behind them. -/
theorem insert_of_forall_lt {key : String} (value : Value) {ms : Members}
    (h : ∀ m ∈ ms, m.1 < key) : insert key value ms = ms ++ [(key, value)] := by
  induction ms with
  | nil => rfl
  | cons n ms ih =>
    obtain ⟨hn, hms⟩ := List.forall_mem_cons.mp h
    obtain ⟨k, v⟩ := n
    unfold insert
    rw [if_neg (ne_of_lt hn), if_neg (lt_asymm hn), ih hms]
    rfl

theorem key_mem_insert {key : String} {value : Value} {ms : Members} {k : String}
    (h : k = key ∨ k ∈ ms.map Prod.fst) : k ∈ (insert key value ms).map Prod.fst := by
  induction ms with
  | nil => simpa [insert] using h
  | cons n ms ih =>
    unfold insert
    grind

/-- The last member is put into what the others make. -/
theorem ofList_concat (entries : List (String × Value)) (m : String × Value) :
    ofList (entries ++ [m]) = insert m.1 m.2 (ofList entries) :=
  List.foldl_concat _ _ m entries

/-- Of several members with one key the last one counts. -/
theorem find?_ofList_of_not_mem {key : String} {value : Value} (before : Members) {behind : Members}
    (h : key ∉ behind.map Prod.fst) :
    find? key (ofList (before ++ (key, value) :: behind)) = some value := by
  induction behind using List.reverseRecOn with
  | nil =>
    rw [ofList_concat]
    exact find?_insert_self key value _
  | append_singleton behind m ih =>
    rw [List.map_append, List.mem_append, not_or] at h
    have hne : key ≠ m.1 := fun heq => h.2 (by simp [heq])
    rw [← List.cons_append, ← List.append_assoc, ofList_concat, find?_insert_of_ne hne]
    exact ih h.1

theorem mem_ofList {entries : List (String × Value)} {m : String × Value}
    (h : m ∈ ofList entries) : m ∈ entries := by
  induction entries using List.reverseRecOn with
  | nil => exact h
  | append_singleton entries n ih =>
    rw [ofList_concat] at h
    rcases mem_insert h with rfl | h
    · exact List.mem_append_right entries (List.mem_singleton_self _)
    · exact List.mem_append_left [n] (ih h)

theorem sorted_ofList (entries : List (String × Value)) : Sorted (ofList entries) := by
  induction entries using List.reverseRecOn with
  | nil => exact List.Pairwise.nil
  | append_singleton entries n ih =>
    rw [ofList_concat]
    exact sorted_insert n.1 n.2 ih

/-- Members in order are put one behind the other. -/
theorem ofList_of_sorted {ms : Members} (h : Sorted ms) : ofList ms = ms := by
  induction ms using List.reverseRecOn with
  | nil => rfl
  | append_singleton ms n ih =>
    obtain ⟨hms, -, hlt⟩ := List.pairwise_append.mp h
    rw [ofList_concat, ih hms]
    exact insert_of_forall_lt n.2 fun m hm => hlt m hm n (List.mem_singleton_self n)

/-- No key gets lost. -/
theorem key_mem_ofList {entries : List (String × Value)} {k : String}
    (h : k ∈ entries.map Prod.fst) : k ∈ (ofList entries).map Prod.fst := by
  induction entries using List.reverseRecOn with
  | nil => exact h
  | append_singleton entries n ih =>
    rw [List.map_append, List.mem_append] at h
    rw [ofList_concat]
    exact key_mem_insert (h.symm.imp List.mem_singleton.mp ih)

end Members

end FreshTag.Json
