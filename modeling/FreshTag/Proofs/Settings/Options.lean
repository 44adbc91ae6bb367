/-
FreshTag/Proofs/Settings/Options.lean

What options say of settings.  Thirteen settings have an option each, and the
command that cleans up has two of them (`serveParameters_eq`).  An option that a
command line gives gives its setting (`get?_entries_ne_none`), because its value
was checked when it was taken in (`gives_of_readCommand`), and it is heard for no
other setting (`get?_entries_insert`).
-/
import FreshTag.CommandLine.Arguments
import FreshTag.Proofs.Settings.Keys

namespace FreshTag

namespace Settings

/-- The option for a setting, if there is one. -/
def Key.option? : Key → Option CommandLine.Parameter
  | .logLevel => some ⟨"log-level", .text⟩
  | .logJson => some ⟨"log-json", .truth⟩
  | .databaseUrl => some ⟨"database-url", .text⟩
  | .maxConnections => some ⟨"database-max-connections", .natural32⟩
  | .cacheKind => some ⟨"cache-kind", .text⟩
  | .naiveCapacity => some ⟨"cache-naive-capacity", .natural64⟩
  | .redisUrl => some ⟨"cache-redis-url", .text⟩
  | .redisPassword | .redisPoolSize | .redisTimeout | .redisKeyPrefix => none
  | .listenerEnabled => some ⟨"listener-enabled", .truth⟩
  | .schema => some ⟨"listener-temp-schema", .text⟩
  | .waitMilliseconds => some ⟨"listener-wait-timeout-ms", .natural64⟩
  | .chunk => some ⟨"listener-chunk-size", .natural32⟩
  | .included => some ⟨"catalog-include", .texts⟩
  | .excluded => some ⟨"catalog-exclude", .texts⟩

end Settings

namespace CommandLine

open Settings (Key Entries)

theorem serveParameters_eq : serveParameters = Key.all.filterMap Key.option? := rfl

theorem cleanupParameters_subset : cleanupParameters ⊆ serveParameters := by
  decide

/-! ### Options and settings -/

namespace Given

theorem value?_insert {name other : String} (h : name ≠ other) (before after : Given) (s : String) :
    value? (before ++ (name, s) :: after) other = value? (before ++ after) other := by
  simp [value?, List.find?_append, h]

theorem values?_insert {name other : String} (h : name ≠ other) (before after : Given) (s : String) :
    values? (before ++ (name, s) :: after) other = values? (before ++ after) other := by
  simp [values?, List.filter_append, h]

/-- An option is heard for its own setting only. -/
theorem get?_entries_insert {k : Key} {name : String}
    (h : ∀ o, k.option? = some o → name ≠ o.name) (before after : Given) (s : String) :
    (entries (before ++ (name, s) :: after)).get? k = (entries (before ++ after)).get? k := by
  cases k
  case redisPassword | redisPoolSize | redisTimeout | redisKeyPrefix => rfl
  case logLevel | databaseUrl | cacheKind | redisUrl | schema =>
    exact value?_insert (h _ rfl) before after s
  case logJson | listenerEnabled =>
    exact congrArg (Option.bind · truth?) (value?_insert (h _ rfl) before after s)
  case maxConnections | chunk =>
    exact congrArg (Option.bind · natural32?) (value?_insert (h _ rfl) before after s)
  case naiveCapacity | waitMilliseconds =>
    exact congrArg (Option.bind · Number.natural64?) (value?_insert (h _ rfl) before after s)
  case included | excluded => exact values?_insert (h _ rfl) before after s

/-- An option is given, with a value of its form. -/
def Gives (g : Given) (o : Parameter) : Prop :=
  ∃ s, g.value? o.name = some s ∧ o.form.refusal? s = none

theorem bind_ne_none {α : Type} {v? : Option String} {s : String} {f : String → Option α}
    (hs : v? = some s) (hf : (if (f s).isSome then none else some Refusal.badValue) = none) :
    v?.bind f ≠ none := by
  rw [hs, Option.bind_some]
  rintro hnone
  simp [hnone] at hf

theorem values?_ne_none {g : Given} {name s : String} (h : g.value? name = some s) :
    g.values? name ≠ none := by
  obtain ⟨given, hfind, -⟩ := Option.map_eq_some_iff.mp h
  have hmem : given ∈ g.filter (·.1 = name) :=
    List.mem_filter.mpr ⟨List.mem_of_find?_eq_some hfind, by simpa using List.find?_some hfind⟩
  unfold values?
  split
  · rename_i hnil
    rw [hnil] at hmem
    cases hmem
  · exact nofun

/-- An option that is given gives its setting. -/
theorem get?_entries_ne_none {k : Key} {o : Parameter} (h : k.option? = some o) {g : Given}
    (hg : g.Gives o) : g.entries.get? k ≠ none := by
  obtain ⟨s, hs, hform⟩ := hg
  cases k
  case redisPassword | redisPoolSize | redisTimeout | redisKeyPrefix => cases h
  all_goals cases h
  case logLevel | databaseUrl | cacheKind | redisUrl | schema =>
    exact fun hnone => nomatch hs.symm.trans hnone
  case included | excluded => exact values?_ne_none hs
  all_goals exact bind_ne_none hs hform

end Given

/-! ### Command lines -/

/-- Each option of a level that was given so far has a value of its form. -/
structure Accepted (parameters : List Parameter) (p : Progress) : Prop where
  given : ∀ name s, (name, s) ∈ p.given →
    ∃ o ∈ parameters, o.name = name ∧ o.form.refusal? s = none
  pending : ∀ o s, p.pending = some (o, s) → o ∈ parameters

namespace Accepted

variable {parameters : List Parameter} {level : Level} {p p' : Progress}

theorem start : Accepted parameters {} :=
  ⟨by simp, by simp⟩

theorem accept (h : Accepted parameters p) {o : Parameter} (ho : o ∈ parameters) {s : String}
    (hp : p.accept o s = .ok p') : Accepted parameters p' := by
  unfold Progress.accept at hp
  split at hp
  · cases hp
  · split at hp
    · cases hp
    · cases hp
      refine ⟨fun name value hmem => ?_, nofun⟩
      rcases List.mem_append.mp hmem with hmem | hmem
      · exact h.given name value hmem
      · obtain ⟨rfl, rfl⟩ := Prod.mk.inj (List.mem_singleton.mp hmem)
        exact ⟨o, ho, rfl, ‹_›⟩

theorem resolve (h : Accepted parameters p) (hp : p.resolve = .ok p') :
    Accepted parameters p' := by
  unfold Progress.resolve at hp
  split at hp
  · cases hp
    exact h
  · cases hp
  · exact h.accept (h.pending _ _ ‹_›) hp

theorem stopFor_ne_ok (p : Progress) (refusal : Refusal) : p.stopFor refusal ≠ .ok p' := by
  unfold Progress.stopFor
  split <;> exact nofun

theorem request_ne_ok (p : Progress) (refusal : Refusal) (value : Option String) :
    request p refusal value ≠ .ok p' := by
  unfold request
  split
  · exact nofun
  · exact stopFor_ne_ok p refusal

theorem longOption (h : Accepted level.parameters p) {cs : List Char}
    (hp : longOption level p cs = .ok p') : Accepted level.parameters p' := by
  unfold CommandLine.longOption at hp
  dsimp only at hp
  split at hp
  · exact absurd hp (request_ne_ok _ _ _)
  · split at hp
    · exact absurd hp (request_ne_ok _ _ _)
    · split at hp
      · cases hp
      · have ho := List.mem_of_find?_eq_some ‹_›
        split at hp
        · cases hp
        · have hresolved := h.resolve ‹_›
          split at hp
          · exact hresolved.accept ho hp
          · cases hp
            exact ⟨hresolved.given, fun o s hpending => by cases hpending; exact ho⟩

theorem shortOption_ne_ok (level : Level) (p : Progress) (cs : List Char) :
    shortOption level p cs ≠ .ok p' := by
  unfold shortOption
  split
  · exact stopFor_ne_ok p .help
  · split
    · exact stopFor_ne_ok p .version
    · exact nofun

theorem readLevel {words : List String} {ending : Ending} (h : Accepted level.parameters p)
    (hp : readLevel level p words = .ok (p', ending)) : Accepted level.parameters p' := by
  induction words generalizing p with
  | nil =>
    cases hp
    exact h
  | cons word rest ih =>
    unfold CommandLine.readLevel at hp
    split at hp
    · split at hp
      · cases hp
        exact h
      · cases hp
        exact h
    · split at hp
      · cases hp
      · exact ih (h.longOption ‹_›) hp
    · split at hp
      · cases hp
      · exact absurd ‹_› (shortOption_ne_ok _ _ _)
    · split at hp
      · rename_i o hpending
        have hnext : Accepted level.parameters { p with pending := some (o, some word) } := by
          refine ⟨h.given, ?_⟩
          rintro _ _ ⟨⟩
          exact h.pending o none hpending
        exact ih hnext hp
      · cases hp
        exact h

theorem readCommand {c : Command} {words : List String} {g : Given}
    (h : readCommand c words = .ok g) {name s : String} (hmem : (name, s) ∈ g) :
    ∃ o ∈ c.parameters, o.name = name ∧ o.form.refusal? s = none := by
  unfold CommandLine.readCommand at h
  split at h
  · cases h
  · cases h
  · rename_i p hlevel
    have hread : Accepted c.parameters p := Accepted.start.readLevel hlevel
    rcases hresolve : p.resolve with refusal | p'
    · rw [hresolve] at h
      cases h
    · rw [hresolve] at h
      cases h
      exact (hread.resolve hresolve).given name s hmem

end Accepted

/-- A command line gives each of its options a value of the option's form. -/
theorem gives_of_readCommand {c : Command} {words : List String} {g : Given}
    (h : readCommand c words = .ok g) {o : Parameter} (ho : o ∈ serveParameters) {s : String}
    (hmem : (o.name, s) ∈ g) : g.Gives o := by
  have hname : ∀ o ∈ serveParameters, ∀ o' ∈ serveParameters, o'.name = o.name → o' = o := by
    decide
  have hparameters : c.parameters ⊆ serveParameters := by
    cases c
    · exact fun _ => id
    · exact cleanupParameters_subset
  obtain ⟨⟨name, value⟩, hfind⟩ : ∃ given, g.find? (·.1 = o.name) = some given := by
    rw [← Option.isSome_iff_exists, List.find?_isSome]
    exact ⟨_, hmem, by simp⟩
  obtain rfl : name = o.name := by simpa using List.find?_some hfind
  obtain ⟨o', ho', hsame, hform⟩ := Accepted.readCommand h (List.mem_of_find?_eq_some hfind)
  rw [hname o ho o' (hparameters ho') hsame] at hform
  exact ⟨value, by rw [Given.value?, hfind]; rfl, hform⟩

end CommandLine

end FreshTag
