/-
FreshTag/Dict.lean

A dictionary from texts to values, one entry per key, in the order in which
the keys first came.  It is used through the view `get?`: what each operation
does to it is one equation (`get?_set`, `get?_erase`, `get?_alter`), and `size`
counts the keys that have a value (`length_keys`, `mem_keys`).
-/

namespace FreshTag

/-- A finite map from texts, in order of arrival. -/
structure Dict (α : Type) where
  entries : List (String × α)
  nodup : (entries.map Prod.fst).Nodup

namespace Dict

variable {α : Type}

/-- The dictionary without entries. -/
def empty : Dict α := ⟨[], by simp⟩

instance : EmptyCollection (Dict α) := ⟨empty⟩

instance : Inhabited (Dict α) := ⟨empty⟩

/-- The keys, in order of arrival. -/
def keys (d : Dict α) : List String := d.entries.map Prod.fst

/-- How many keys there are. -/
def size (d : Dict α) : Nat := d.entries.length

/-- The value of a key. -/
def get? (d : Dict α) (k : String) : Option α :=
  (d.entries.find? (·.1 = k)).map Prod.snd

/-- The key has a value. -/
def contains (d : Dict α) (k : String) : Bool := (d.get? k).isSome

/-- Takes a key out. -/
def erase (d : Dict α) (k : String) : Dict α where
  entries := d.entries.filter (·.1 ≠ k)
  nodup := d.nodup.sublist (List.filter_sublist.map _)

/-- Gives a key a value; a key that is there already keeps its place. -/
def set (d : Dict α) (k : String) (v : α) : Dict α where
  entries :=
    if k ∈ d.keys then d.entries.map fun p => if p.1 = k then (k, v) else p
    else d.entries ++ [(k, v)]
  nodup := by
    split
    · have h : (Prod.fst ∘ fun p : String × α => if p.1 = k then (k, v) else p) = Prod.fst := by
        funext p
        by_cases hp : p.1 = k <;> simp [hp]
      rw [List.map_map, h]
      exact d.nodup
    · next h =>
      rw [List.map_append, List.nodup_append]
      refine ⟨d.nodup, by simp, ?_⟩
      rintro a ha b hb rfl
      simp only [List.map_cons, List.map_nil, List.mem_singleton] at hb
      exact h (hb ▸ ha)

/-- Changes the value of a key; without a result the key is taken out. -/
def alter (d : Dict α) (k : String) (f : Option α → Option α) : Dict α :=
  match f (d.get? k) with
  | some v => d.set k v
  | none => d.erase k

/-! ### The view -/

@[simp] theorem get?_empty (k : String) : (empty : Dict α).get? k = none := rfl

theorem get?_eq_some_iff {d : Dict α} {k : String} {v : α} :
    d.get? k = some v ↔ (k, v) ∈ d.entries := by
  obtain ⟨entries, nodup⟩ := d
  unfold get?
  induction entries with
  | nil => simp
  | cons p ps ih =>
    obtain ⟨j, u⟩ := p
    simp only [List.map_cons, List.nodup_cons] at nodup
    by_cases h : j = k
    · subst h
      have hne : ∀ w, (j, w) ∉ ps := fun w hw => nodup.1 (List.mem_map.mpr ⟨_, hw, rfl⟩)
      simp [hne, eq_comm]
    · simpa [List.find?_cons, h, Ne.symm h] using ih nodup.2

theorem mem_keys {d : Dict α} {k : String} : k ∈ d.keys ↔ d.contains k = true := by
  simp only [keys, List.mem_map, contains, Option.isSome_iff_exists, get?_eq_some_iff]
  constructor
  · rintro ⟨⟨j, v⟩, hm, rfl⟩; exact ⟨v, hm⟩
  · rintro ⟨v, hm⟩; exact ⟨(k, v), hm, rfl⟩

theorem length_keys (d : Dict α) : d.keys.length = d.size := by simp [keys, size]

/-- Dictionaries with values for the same keys are of one size. -/
theorem size_congr {β : Type} {d : Dict α} {d' : Dict β}
    (h : ∀ k, d.contains k = d'.contains k) : d.size = d'.size := by
  have hkeys : ∀ k, k ∈ d.keys ↔ k ∈ d'.keys := by
    intro k
    rw [mem_keys, mem_keys, h]
  rw [← length_keys, ← length_keys]
  exact ((List.perm_ext_iff_of_nodup d.nodup d'.nodup).mpr hkeys).length_eq

theorem get?_erase (d : Dict α) (k j : String) :
    (d.erase k).get? j = if j = k then none else d.get? j := by
  unfold get? erase
  simp only
  rw [List.find?_filter]
  by_cases h : j = k
  · subst h
    rw [if_pos rfl, List.find?_eq_none.mpr]
    · rfl
    · intro p _; simp
  · simp only [h, if_false]
    congr 2
    funext p
    by_cases hp : p.1 = j <;> simp [hp, h]

/-- Taking out several keys. -/
theorem get?_foldl_erase (ks : List String) (d : Dict α) (j : String) :
    (ks.foldl erase d).get? j = if j ∈ ks then none else d.get? j := by
  induction ks generalizing d with
  | nil => rfl
  | cons k ks ih =>
    rw [List.foldl_cons, ih, get?_erase]
    by_cases h : j = k <;> simp [h]

theorem get?_set (d : Dict α) (k : String) (v : α) (j : String) :
    (d.set k v).get? j = if j = k then some v else d.get? j := by
  apply Option.ext
  intro w
  rw [get?_eq_some_iff]
  by_cases hj : j = k
  · subst hj
    rw [if_pos rfl, Option.some.injEq]
    unfold set
    by_cases hk : j ∈ d.keys
    · simp only [hk, if_true, List.mem_map]
      constructor
      · rintro ⟨p, _, he⟩
        by_cases hp : p.1 = j
        · simp only [hp, if_true, Prod.mk.injEq, true_and] at he; exact he
        · simp only [hp, if_false] at he; subst he; exact absurd rfl hp
      · rintro rfl
        obtain ⟨p, hp, rfl⟩ := List.mem_map.mp hk
        exact ⟨p, hp, by simp⟩
    · have hne : (j, w) ∉ d.entries := fun h => hk (List.mem_map.mpr ⟨_, h, rfl⟩)
      simp [hk, hne, eq_comm]
  · simp only [hj, if_false]
    rw [get?_eq_some_iff]
    unfold set
    by_cases hk : k ∈ d.keys
    · simp only [hk, if_true, List.mem_map]
      constructor
      · rintro ⟨p, hp, he⟩
        by_cases hp' : p.1 = k
        · simp only [hp', if_true, Prod.mk.injEq] at he; exact absurd he.1.symm hj
        · simp only [hp', if_false] at he; exact he ▸ hp
      · intro h
        exact ⟨_, h, by simp [hj]⟩
    · simp [hk, hj]

theorem get?_alter (d : Dict α) (k : String) (f : Option α → Option α) (j : String) :
    (d.alter k f).get? j = if j = k then f (d.get? k) else d.get? j := by
  unfold alter
  split
  · next v hv => rw [get?_set, hv]
  · next hv => rw [get?_erase, hv]

theorem set_set_empty (k : String) (v w : α) :
    ((∅ : Dict α).set k v).set k w = (∅ : Dict α).set k w := by
  simp [set, keys, EmptyCollection.emptyCollection, empty]

theorem erase_set_empty (k : String) (v : α) : ((∅ : Dict α).set k v).erase k = ∅ := by
  simp [set, erase, keys, EmptyCollection.emptyCollection, empty]

theorem contains_eq_true_iff {d : Dict α} {k : String} :
    d.contains k = true ↔ ∃ v, d.get? k = some v :=
  Option.isSome_iff_exists

/-- A dictionary without entries has no values. -/
theorem size_eq_zero_iff {d : Dict α} : d.size = 0 ↔ ∀ k, d.get? k = none := by
  unfold size
  rw [List.length_eq_zero_iff, List.eq_nil_iff_forall_not_mem]
  constructor
  · intro h k
    rw [← Option.not_isSome_iff_eq_none, Option.isSome_iff_exists]
    rintro ⟨v, hv⟩
    exact h (k, v) (get?_eq_some_iff.mp hv)
  · rintro h ⟨k, v⟩ hmem
    rw [← get?_eq_some_iff, h k] at hmem
    cases hmem

end Dict

end FreshTag
