/-
FreshTag/Proofs/Settings/Sayings.lean

What a layer says of a setting.  A name in a layer is a path.  If it is a section,
with a table, then the table says something of each setting in it; if it leads on
from a section, it says something of one setting, or of something inside it
(`Key.saidBy`).  A layer says of a setting all that its names say of it, in order
(`Key.sayings`).

Writing a layer over a value applies to each setting what the layer says of it, and
nothing else (`setting?_writeAll`), and a setting is read off what has become of it
(`reading_eq`).  Both need that every section is a table where it is there at all.
-/
import FreshTag.Proofs.Settings.Keys

namespace FreshTag.Settings

/-! ### Entries of values -/

namespace Value

/-- An entry of a value; only tables have any. -/
def child? (name : String) : Value → Option Value
  | .table entries => find? name entries
  | _ => none

/-- There is no value, or it is a table. -/
def AbsentOrTable (v? : Option Value) : Prop :=
  ∀ v, v? = some v → ∃ entries, v = .table entries

theorem AbsentOrTable.some_table {v : Value} (h : ∃ entries, v = .table entries) :
    AbsentOrTable (some v) := by
  rintro _ ⟨⟩
  exact h

theorem child?_alter (name other : String) (f : Value → Value) (v : Value) :
    (v.alter name f).child? other =
      if other = name then some (f ((v.child? name).getD .null)) else v.child? other := by
  cases v with
  | table entries => exact find?_alterEntry name other f entries
  | _ => simp [alter, child?, find?, eq_comm]

theorem exists_alter_eq_table (name : String) (f : Value → Value) (v : Value) :
    ∃ entries, v.alter name f = .table entries := by
  cases v <;> exact ⟨_, rfl⟩

theorem exists_mergeEntries_eq_table {v : Value} (h : ∃ entries, v = .table entries)
    (entries : List (String × Value)) : ∃ merged, mergeEntries v entries = .table merged := by
  induction entries generalizing v with
  | nil => simpa [mergeEntries] using h
  | cons e rest ih =>
    obtain ⟨name, stronger⟩ := e
    rw [mergeEntries]
    exact ih (exists_alter_eq_table _ _ _)

theorem exists_merge_eq_table (v : Value) (entries : List (String × Value)) :
    ∃ merged, merge v (.table entries) = .table merged := by
  cases v <;> exact exists_mergeEntries_eq_table ⟨_, rfl⟩ entries

/-- Nothing but a table has regard for what it is merged over. -/
theorem merge_eq_or (v stronger : Value) :
    merge v stronger = stronger ∨ ∃ entries, stronger = .table entries := by
  cases stronger with
  | table entries => exact .inr ⟨entries, rfl⟩
  | _ => exact .inl (by cases v <;> rfl)

/-- Over something that is absent or a table, a table is merged entry by entry. -/
theorem merge_table {v? : Option Value} (h : AbsentOrTable v?) (entries : List (String × Value)) :
    merge (v?.getD .null) (.table entries) = mergeEntries (v?.getD (.table [])) entries := by
  rcases v? with - | v
  · rw [Option.getD_none, Option.getD_none, merge]
    exact nofun
  · obtain ⟨weaker, rfl⟩ := h v rfl
    rw [Option.getD_some, Option.getD_some, merge]

end Value

/-! ### What a layer says -/

/-- What is said of a setting: a value for it, or for something inside it. -/
structure Saying where
  steps : List Step
  value : Value

/-- The setting once this was said of it. -/
def Saying.apply (v? : Option Value) (s : Saying) : Option Value :=
  some (Path.alterAt (fun weaker => weaker.merge s.value) s.steps (v?.getD .null))

namespace Key

/-- What a path with a value says of a setting. -/
def saidBy (k : Key) (p : Path) (v : Value) : List Saying :=
  if p.first = k.sectionName then
    match p.steps, v with
    | [], .table entries => (entries.filter (·.1 = k.name)).map fun e => ⟨[], e.2⟩
    | .entry name :: rest, v => if name = k.name then [⟨rest, v⟩] else []
    | _, _ => []
  else []

/-- What a layer says of a setting. -/
def sayings (k : Key) (entries : List (String × Value)) : List Saying :=
  entries.flatMap fun e => k.saidBy (.ofText e.1) e.2

end Key

/-- A path that begins with a section is that section, with a table, or it leads to an entry of the
section. -/
def Path.Tabular (p : Path) (v : Value) : Prop :=
  ∀ k : Key, p.first = k.sectionName →
    (p.steps = [] ∧ ∃ entries, v = .table entries) ∨ ∃ name rest, p.steps = .entry name :: rest

/-- In the layer each section is absent or a table. -/
def Tabular (entries : List (String × Value)) : Prop :=
  ∀ e ∈ entries, (Path.ofText e.1).Tabular e.2

/-! ### What becomes of a setting -/

namespace Value

/-- What stands for a setting. -/
def setting? (v : Value) (k : Key) : Option Value :=
  (v.child? k.sectionName).bind (child? k.name)

/-- Each section is absent or a table. -/
def Sectioned (v : Value) : Prop :=
  ∀ k : Key, AbsentOrTable (v.child? k.sectionName)

theorem sectioned_empty : Sectioned (.table []) :=
  fun _ => nofun

theorem child?_mergeEntries (v : Value) (entries : List (String × Value)) (name : String) :
    (mergeEntries v entries).child? name =
      ((entries.filter (·.1 = name)).map fun e => (⟨[], e.2⟩ : Saying)).foldl Saying.apply
        (v.child? name) := by
  induction entries generalizing v with
  | nil => simp [mergeEntries]
  | cons e rest ih =>
    obtain ⟨n, stronger⟩ := e
    rw [mergeEntries, ih, child?_alter]
    by_cases hn : n = name
    · subst hn
      simp [Saying.apply, Path.alterAt]
    · simp [hn, Ne.symm hn]

theorem child?_getD_null (v? : Option Value) (name : String) :
    (v?.getD .null).child? name = v?.bind (child? name) := by
  cases v? <;> rfl

end Value

open Value (AbsentOrTable Sectioned)

theorem child?_write (p : Path) (v root : Value) (name : String) :
    (p.write v root).child? name =
      if name = p.first then
        some (Path.alterAt (fun weaker => weaker.merge v) p.steps
          ((root.child? p.first).getD .null))
      else root.child? name :=
  Value.child?_alter _ _ _ _

theorem Value.Sectioned.write {root : Value} (h : Sectioned root) {p : Path} {v : Value}
    (hp : p.Tabular v) : Sectioned (p.write v root) := by
  intro k
  rw [child?_write]
  split
  · refine .some_table ?_
    rcases hp k (Eq.symm ‹_›) with ⟨hsteps, entries, rfl⟩ | ⟨name, rest, hsteps⟩
    · rw [hsteps]
      exact Value.exists_merge_eq_table _ _
    · rw [hsteps]
      exact Value.exists_alter_eq_table _ _ _
  · exact h k

/-- Writing to a path applies to a setting what the path says of it. -/
theorem setting?_write {root : Value} (h : Sectioned root) {p : Path} {v : Value}
    (hp : p.Tabular v) (k : Key) :
    (p.write v root).setting? k = (k.saidBy p v).foldl Saying.apply (root.setting? k) := by
  unfold Value.setting? Key.saidBy
  rw [child?_write]
  by_cases hfirst : p.first = k.sectionName
  · rw [if_pos hfirst, if_pos hfirst.symm, hfirst, Option.bind_some]
    rcases hp k hfirst with ⟨hsteps, entries, rfl⟩ | ⟨name, rest, hsteps⟩
    · rw [hsteps, Path.alterAt, Value.merge_table (h k), Value.child?_mergeEntries]
      congr 1
      rcases root.child? k.sectionName with - | weaker <;> rfl
    · simp only [hsteps, Path.alterAt]
      rw [Value.child?_alter, Value.child?_getD_null, Value.child?_getD_null]
      by_cases hname : name = k.name
      · subst hname
        simp [Saying.apply]
      · simp [hname, Ne.symm hname]
  · rw [if_neg hfirst, if_neg (Ne.symm hfirst)]
    rfl

theorem Value.Sectioned.writeAll {entries : List (String × Value)} (h : Tabular entries)
    {root : Value} (hroot : Sectioned root) : Sectioned (writeAll entries root) := by
  unfold Settings.writeAll
  induction entries generalizing root with
  | nil => exact hroot
  | cons e rest ih =>
    rw [Tabular, List.forall_mem_cons] at h
    exact ih h.2 (hroot.write h.1)

/-- Writing a layer over a value applies to a setting what the layer says of it. -/
theorem setting?_writeAll {entries : List (String × Value)} (h : Tabular entries) {root : Value}
    (hroot : Sectioned root) (k : Key) :
    (writeAll entries root).setting? k =
      (k.sayings entries).foldl Saying.apply (root.setting? k) := by
  unfold writeAll Key.sayings
  induction entries generalizing root with
  | nil => rfl
  | cons e rest ih =>
    rw [Tabular, List.forall_mem_cons] at h
    rw [List.foldl_cons, ih h.2 (hroot.write h.1), setting?_write hroot h.1, List.flatMap_cons,
      List.foldl_append]

/-! ### Reading a setting -/

/-- What stands for a setting, read as its type. -/
def Key.readSetting (k : Key) (v? : Option Value) : Except Unusable (Option k.Reading) :=
  Entries.Section.read ⟨k.sectionName, fun _ => v?⟩ k.read? k.name

theorem sectionOf_eq {root : Value} {name : String} (h : AbsentOrTable (root.child? name)) :
    Entries.sectionOf root name =
      .ok ⟨name, fun setting => (root.child? name).bind (Value.child? setting)⟩ := by
  cases root with
  | table entries =>
    unfold Entries.sectionOf Value.child?
    rcases hv : Value.find? name entries with - | v
    · simp only [hv]
      rfl
    · obtain ⟨settings, rfl⟩ := h v hv
      simp only [hv]
      rfl
  | _ => rfl

/-- Where sections are absent or tables, a setting is read off what stands for it. -/
theorem reading_eq {root : Value} (h : Sectioned root) (k : Key) :
    Entries.reading root k = k.readSetting (root.setting? k) := by
  unfold Entries.reading
  rw [sectionOf_eq (h k)]
  rfl

end FreshTag.Settings
