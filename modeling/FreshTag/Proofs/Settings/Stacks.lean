/-
FreshTag/Proofs/Settings/Stacks.lean

Two stacks of layers, place by place.  What they say of all settings but one is
the same, and for that one a relation is kept from the weakest place to the
strongest (`combined_paired`).  If what is read in the end differs only where
stronger entries give the setting, then the same settings are loaded
(`load_eq_of_paired`).

There are two relations to keep.  Values are `Alike` if they are the same, or tables
both; any saying keeps that, and most of them bring it about.  And values are
`Readable` if they can be read as the type of the setting.
-/
import FreshTag.Proofs.Settings.Rules
import FreshTag.Proofs.Settings.Sayings

namespace FreshTag.Settings

open Value (Sectioned)

/-! ### Places -/

/-- A place that settings come from. -/
inductive Place where
  | base
  | site
  | named
  | environment
  deriving DecidableEq, Repr

/-- The places, the weakest first. -/
def Place.all : List Place := [.base, .site, .named, .environment]

/-- How many places are weaker. -/
def Place.rank : Place → Nat
  | .base => 0
  | .site => 1
  | .named => 2
  | .environment => 3

theorem Place.rank_injective {p q : Place} (h : p.rank = q.rank) : p = q := by
  revert h
  cases p <;> cases q <;> simp [Place.rank]

theorem Place.rank_lt (p : Place) : p.rank < 4 := by
  cases p <;> decide

/-- What a place says, if it can be used. -/
def Layers.layer (l : Layers) : Place → Except Unusable (List (String × Value))
  | .base => l.base.entries
  | .site => l.site.entries
  | .named => namedEntries l.named
  | .environment => .ok (ofEnvironment l.environment)

theorem combined_eq_foldlM (l : Layers) :
    l.combined =
      Place.all.foldlM (fun root p => do return writeAll (← l.layer p) root) (.table []) := by
  simp only [Place.all, List.foldlM_cons, List.foldlM_nil, bind_assoc, pure_bind]
  rfl

/-! ### A setting in two stacks of layers -/

/-- Two layers say the same of every setting but one. -/
def SameBut (k : Key) (entries entries' : List (String × Value)) : Prop :=
  ∀ other : Key, other ≠ k → other.sayings entries = other.sayings entries'

/-- Two values hold the same but for one setting, for which a relation holds. -/
structure Related (k : Key) (R : Option Value → Option Value → Prop) (root root' : Value) :
    Prop where
  sectioned : Sectioned root
  sectioned' : Sectioned root'
  others : ∀ other : Key, other ≠ k → root.setting? other = root'.setting? other
  this : R (root.setting? k) (root'.setting? k)

theorem Related.writeAll {k : Key} {R S : Option Value → Option Value → Prop} {root root' : Value}
    (h : Related k R root root') {entries entries' : List (String × Value)}
    (htab : Tabular entries) (htab' : Tabular entries') (hsame : SameBut k entries entries')
    (hthis : ∀ v v', R v v' →
      S ((k.sayings entries).foldl Saying.apply v) ((k.sayings entries').foldl Saying.apply v')) :
    Related k S (writeAll entries root) (writeAll entries' root') where
  sectioned := h.sectioned.writeAll htab
  sectioned' := h.sectioned'.writeAll htab'
  others := by
    intro other hother
    rw [setting?_writeAll htab h.sectioned, setting?_writeAll htab' h.sectioned',
      hsame other hother, h.others other hother]
  this := by
    rw [setting?_writeAll htab h.sectioned, setting?_writeAll htab' h.sectioned']
    exact hthis _ _ h.this

/-- From the weakest place to the strongest a relation is kept, if each place keeps it. -/
theorem combined_paired {k : Key} {R : Nat → Option Value → Option Value → Prop} {l l' : Layers}
    (hstart : R 0 none none)
    (hplaces : ∀ p, Paired (fun entries entries' =>
      Tabular entries ∧ Tabular entries' ∧ SameBut k entries entries' ∧
        ∀ v v', R p.rank v v' → R (p.rank + 1) ((k.sayings entries).foldl Saying.apply v)
          ((k.sayings entries').foldl Saying.apply v')) (l.layer p) (l'.layer p)) :
    Paired (Related k (R 4)) l.combined l'.combined := by
  have hplace : ∀ p root root', Related k (R p.rank) root root' →
      Paired (Related k (R (p.rank + 1))) (do return writeAll (← l.layer p) root)
        (do return writeAll (← l'.layer p) root') := by
    intro p root root' h
    exact (hplaces p).bind fun _ _ hlayers =>
      .ok (h.writeAll hlayers.1 hlayers.2.1 hlayers.2.2.1 hlayers.2.2.2)
  rw [combined_eq_foldlM, combined_eq_foldlM]
  have hempty : Related k (R 0) (.table []) (.table []) :=
    ⟨Value.sectioned_empty, Value.sectioned_empty, fun _ _ => rfl, hstart⟩
  refine (hplace .base _ _ hempty).bind fun _ _ h => ?_
  refine (hplace .site _ _ h).bind fun _ _ h => ?_
  refine (hplace .named _ _ h).bind fun _ _ h => ?_
  refine (hplace .environment _ _ h).bind fun _ _ h => ?_
  exact .ok h

/-- The same settings are loaded where stronger entries give whatever is read differently. -/
theorem load_eq_of_paired {k : Key} {R : Option Value → Option Value → Prop} {l l' : Layers}
    {overrides : Entries} (h : Paired (Related k R) l.combined l'.combined)
    (hread : ∀ v v', R v v' → Paired (fun x x' => overrides.get? k = none → x = x')
      (k.readSetting v) (k.readSetting v')) :
    load l overrides = load l' overrides := by
  have hgiven : Paired (Entries.SameUnder overrides) l.given l'.given := by
    refine h.bind fun root root' hroot => ?_
    rw [Entries.ofValue_eq_gather, Entries.ofValue_eq_gather]
    refine Entries.gather_sameUnder (fun other => ?_) Key.all fun _ _ => rfl
    rw [reading_eq hroot.sectioned, reading_eq hroot.sectioned']
    by_cases hother : other = k
    · subst hother
      exact hread _ _ hroot.this
    · rw [hroot.others other hother]
      exact .refl fun _ _ _ => rfl
  obtain ⟨cause, hl, hl'⟩ | ⟨given, given', hl, hl', hsame⟩ := hgiven
  · rw [load_of_unusable hl, load_of_unusable hl']
  · rw [load_of_given hl, load_of_given hl', hsame.overriding_eq]

/-! ### Values that nothing tells apart -/

/-- The same stands for a setting in two stacks, or a table in both. -/
def Alike (v v' : Option Value) : Prop :=
  v = v' ∨ ∃ entries entries', v = some (.table entries) ∧ v' = some (.table entries')

/-- What is said does not concern a single place of a list. -/
def Saying.Placeless (s : Saying) : Prop :=
  ∀ place rest, s.steps ≠ .item place :: rest

theorem Saying.placeless_of_whole {s : Saying} (h : s.steps = []) : s.Placeless := by
  intro place rest
  rw [h]
  exact nofun

namespace Alike

variable {v v' : Option Value}

theorem readSetting_eq (h : Alike v v') (k : Key) : k.readSetting v = k.readSetting v' := by
  obtain rfl | ⟨entries, entries', rfl, rfl⟩ := h
  · rfl
  · simp [Key.readSetting, Entries.Section.read, Key.read?_table]

theorem of_tables {v v' : Value} (h : ∃ entries, v = .table entries)
    (h' : ∃ entries, v' = .table entries) : Alike (some v) (some v') := by
  obtain ⟨entries, rfl⟩ := h
  obtain ⟨entries', rfl⟩ := h'
  exact .inr ⟨entries, entries', rfl, rfl⟩

/-- A table is merged to a table, and all else has no regard for what was there. -/
theorem of_merge (v v' stronger : Value) :
    Alike (some (v.merge stronger)) (some (v'.merge stronger)) := by
  by_cases htable : ∃ entries, stronger = .table entries
  · obtain ⟨entries, rfl⟩ := htable
    exact of_tables (Value.exists_merge_eq_table v entries) (Value.exists_merge_eq_table v' entries)
  · rw [(Value.merge_eq_or v stronger).resolve_right htable,
      (Value.merge_eq_or v' stronger).resolve_right htable]
    exact .inl rfl

/-- Whatever stood there before, what is said makes it alike, unless it concerns a place of a list. -/
theorem of_placeless {s : Saying} (hs : s.Placeless) (v v' : Option Value) :
    Alike (s.apply v) (s.apply v') := by
  unfold Saying.apply
  rcases hsteps : s.steps with - | ⟨step, rest⟩
  · exact of_merge _ _ _
  · cases step with
    | entry name =>
      exact of_tables (Value.exists_alter_eq_table _ _ _) (Value.exists_alter_eq_table _ _ _)
    | item place => exact absurd hsteps (hs place rest)

theorem apply (h : Alike v v') (s : Saying) : Alike (s.apply v) (s.apply v') := by
  by_cases hs : s.Placeless
  · exact of_placeless hs v v'
  · obtain rfl | ⟨entries, entries', rfl, rfl⟩ := h
    · exact .inl rfl
    · obtain ⟨place, rest, hsteps⟩ : ∃ place rest, s.steps = .item place :: rest := by
        simpa [Saying.Placeless] using hs
      -- over a table a list begins anew
      rw [Saying.apply, Saying.apply, hsteps]
      exact .inl rfl

theorem foldl (h : Alike v v') (sayings : List Saying) :
    Alike (sayings.foldl Saying.apply v) (sayings.foldl Saying.apply v') := by
  induction sayings generalizing v v' with
  | nil => exact h
  | cons s sayings ih => exact ih (h.apply s)

theorem foldl_of_mem {sayings : List Saying} {s : Saying} (hmem : s ∈ sayings)
    (hs : s.Placeless) (v v' : Option Value) :
    Alike (sayings.foldl Saying.apply v) (sayings.foldl Saying.apply v') := by
  obtain ⟨before, after, rfl⟩ := List.append_of_mem hmem
  rw [List.foldl_append, List.foldl_append, List.foldl_cons, List.foldl_cons]
  exact (of_placeless hs _ _).foldl after

end Alike

/-! ### Values that can be read -/

/-- What stands for a setting can be read. -/
def Key.Readable (k : Key) (v : Option Value) : Prop :=
  ∃ x, k.readSetting v = .ok x

/-- A layer gives a setting, and each time it does, with a value that can be read. -/
structure Key.ReadablyGiven (k : Key) (entries : List (String × Value)) : Prop where
  ne_nil : k.sayings entries ≠ []
  whole : ∀ s ∈ k.sayings entries, s.steps = []
  readable : ∀ s ∈ k.sayings entries, k.Readable (some s.value)

namespace Key.Readable

variable {k : Key}

theorem apply {s : Saying} (hs : s.steps = []) (hvalue : k.Readable (some s.value))
    (v : Option Value) : k.Readable (s.apply v) := by
  obtain hmerge | ⟨entries, hentries⟩ := Value.merge_eq_or (v.getD .null) s.value
  · rw [Saying.apply, hs, Path.alterAt, hmerge]
    exact hvalue
  · obtain ⟨x, hx⟩ := hvalue
    rw [hentries] at hx
    simp [readSetting, Entries.Section.read, Key.read?_table] at hx

theorem foldl {sayings : List Saying} (hwhole : ∀ s ∈ sayings, s.steps = [])
    (hread : ∀ s ∈ sayings, k.Readable (some s.value)) {v : Option Value} (h : k.Readable v) :
    k.Readable (sayings.foldl Saying.apply v) := by
  induction sayings generalizing v with
  | nil => exact h
  | cons s sayings ih =>
    rw [List.forall_mem_cons] at hwhole hread
    exact ih hwhole.2 hread.2 (apply hwhole.1 hread.1 v)

theorem of_given {entries : List (String × Value)} (h : k.ReadablyGiven entries)
    (v : Option Value) :
    k.Readable ((k.sayings entries).foldl Saying.apply v) := by
  obtain ⟨hne, hwhole, hread⟩ := h
  generalize k.sayings entries = sayings at *
  rcases sayings with - | ⟨s, sayings⟩
  · exact absurd rfl hne
  · rw [List.forall_mem_cons] at hwhole hread
    rw [List.foldl_cons]
    exact foldl hwhole.2 hread.2 (apply hwhole.1 hread.1 v)

end Key.Readable

end FreshTag.Settings
