/-
FreshTag/Proofs/Settings/Precedence.lean

The stronger place decides.  Where a layer gives a setting, nothing that weaker
layers say of it matters, also not whether it could be read there; and where an
option gives it, the layers may give any values that can be read.  An option is
heard for its own setting only (`stronger_places_decide`).

A name that leads to a single place of a list is an exception.  It gives no
setting, but changes the list that weaker layers give, and if that is too short,
the places between are `null`, so that it can no longer be read.  Then an option
that gives the list does not help (`weaker_lists_matter`).
-/
import FreshTag.Proofs.Settings.Options
import FreshTag.Proofs.Settings.Stacks

namespace FreshTag.Settings

/-! ### Settings that a layer gives -/

/-- A layer gives a setting. -/
def Key.IsGiven (k : Key) (entries : List (String × Value)) : Prop :=
  ∃ v, ⟨[], v⟩ ∈ k.sayings entries

/-- In a stack of layers each section is absent or a table. -/
def Layers.Tabular (l : Layers) : Prop :=
  ∀ p entries, l.layer p = .ok entries → Settings.Tabular entries

/-- A place gives a setting, and in weaker places two stacks of layers differ in that setting at
most; in all others they are the same. -/
structure Layers.Decided (k : Key) (p : Place) (l l' : Layers) : Prop where
  tabular : l.Tabular
  tabular' : l'.Tabular
  given : ∃ entries, l.layer p = .ok entries ∧ k.IsGiven entries
  same : ∀ q, p.rank ≤ q.rank → l.layer q = l'.layer q
  weaker : ∀ q, q.rank < p.rank → Paired (SameBut k) (l.layer q) (l'.layer q)

theorem Layers.Decided.load_eq {k : Key} {p : Place} {l l' : Layers} (h : Layers.Decided k p l l')
    (overrides : Entries) : load l overrides = load l' overrides := by
  -- below the place anything may stand for the setting
  refine load_eq_of_paired (k := k) (R := fun v v' => p.rank < 4 → Alike v v') ?_ ?_
  · refine combined_paired (R := fun n v v' => p.rank < n → Alike v v') nofun fun q => ?_
    rcases Nat.lt_or_ge q.rank p.rank with hlt | hge
    · refine (h.weaker q hlt).imp fun entries entries' hl hl' hsame => ?_
      refine ⟨h.tabular q _ hl, h.tabular' q _ hl', hsame, fun v v' _ hn => ?_⟩
      omega
    · rw [h.same q hge]
      refine .refl fun entries hl' => ?_
      have htab := h.tabular' q _ hl'
      refine ⟨htab, htab, fun _ _ => rfl, fun v v' hv _ => ?_⟩
      rcases Nat.lt_or_eq_of_le hge with hgt | heq
      · exact (hv hgt).foldl _
      · obtain rfl := Place.rank_injective heq
        obtain ⟨given, hl, value, hmem⟩ := h.given
        rw [h.same p hge, hl'] at hl
        cases hl
        exact .foldl_of_mem hmem (Saying.placeless_of_whole rfl) _ _
  · intro v v' hv
    rw [(hv p.rank_lt).readSetting_eq]
    exact .refl fun _ _ _ => rfl

/-! ### Settings that an option gives -/

/-- Two stacks of layers are the same, but that a place may give another value for a setting, out of
those that can be read. -/
structure Layers.Revalued (k : Key) (l l' : Layers) : Prop where
  tabular : l.Tabular
  tabular' : l'.Tabular
  varied : ∀ p, l.layer p = l'.layer p ∨
    Paired (fun entries entries' =>
      SameBut k entries entries' ∧ k.ReadablyGiven entries ∧ k.ReadablyGiven entries')
      (l.layer p) (l'.layer p)

/-- No layer says anything of a single place of a setting that is a list. -/
def Layers.Placeless (k : Key) (l : Layers) : Prop :=
  ∀ p entries, l.layer p = .ok entries → ∀ s ∈ k.sayings entries, s.Placeless

theorem Layers.Revalued.load_eq {k : Key} {l l' : Layers} (h : Layers.Revalued k l l')
    (hplaceless : l.Placeless k) {overrides : Entries} (hgiven : overrides.get? k ≠ none) :
    load l overrides = load l' overrides := by
  let R := fun v v' : Option Value => Alike v v' ∨ k.Readable v ∧ k.Readable v'
  refine load_eq_of_paired (k := k) (R := R) ?_ ?_
  · refine combined_paired (R := fun _ => R) (.inl (.inl rfl)) fun p => ?_
    rcases h.varied p with hsame | hvaried
    · rw [← hsame]
      refine .refl fun entries hl => ?_
      have htab := h.tabular p _ hl
      refine ⟨htab, htab, fun _ _ => rfl, ?_⟩
      rintro v v' (halike | ⟨hread, hread'⟩)
      · exact .inl (halike.foldl _)
      · rcases hsayings : k.sayings entries with - | ⟨s, sayings⟩
        · exact .inr ⟨hread, hread'⟩
        · have hmem : s ∈ k.sayings entries := hsayings ▸ List.mem_cons_self
          rw [← hsayings]
          exact .inl (.foldl_of_mem hmem (hplaceless p _ hl s hmem) _ _)
    · refine hvaried.imp fun entries entries' hl hl' ⟨hsame, hread, hread'⟩ => ?_
      exact ⟨h.tabular p _ hl, h.tabular' p _ hl', hsame,
        fun v v' _ => .inr ⟨.of_given hread v, .of_given hread' v'⟩⟩
  · rintro v v' (halike | ⟨⟨x, hx⟩, x', hx'⟩)
    · rw [halike.readSetting_eq]
      exact .refl fun _ _ _ => rfl
    · rw [hx, hx']
      exact .ok fun hnone => absurd hnone hgiven

/-! ### Precedence -/

/-- For every setting: where a layer gives it, it does not matter what weaker layers say of it;
where a command line gives it, it does not matter which of the values that can be read the layers
give, as long as none of them says anything of a single place of a list; and an option for anything
else leaves the setting as it is. -/
theorem stronger_places_decide (k : Key) :
    (∀ p l l', Layers.Decided k p l l' → ∀ overrides, load l overrides = load l' overrides) ∧
      (∀ c words g o s, CommandLine.readCommand c words = .ok g → k.option? = some o →
        (o.name, s) ∈ g → ∀ l l', Layers.Revalued k l l' → l.Placeless k →
          load l g.entries = load l' g.entries) ∧
      ∀ (name s : String) (before after : CommandLine.Given) (raw : Entries),
        (∀ o, k.option? = some o → name ≠ o.name) →
          ((CommandLine.Given.entries (before ++ (name, s) :: after)).overriding raw).get? k =
            ((CommandLine.Given.entries (before ++ after)).overriding raw).get? k := by
  refine ⟨fun p l l' h overrides => h.load_eq overrides, ?_, ?_⟩
  · intro c words g o s hread hoption hmem l l' h hplaceless
    have hlisted : o ∈ CommandLine.serveParameters := by
      rw [CommandLine.serveParameters_eq]
      exact List.mem_filterMap.mpr ⟨k, k.mem_all, hoption⟩
    have hgives := CommandLine.gives_of_readCommand hread hlisted hmem
    exact h.load_eq hplaceless (CommandLine.Given.get?_entries_ne_none hoption hgives)
  · intro name s before after raw hname
    rw [Entries.get?_overriding, Entries.get?_overriding,
      CommandLine.Given.get?_entries_insert hname]

/-! ### Lists of tables -/

/-- A file that gives the tables to be watched. -/
def catalogFile (v : Json.Value) : ConfigFile :=
  .content (.object [("catalog", .object [("include", v)])])

/-- What the file says. -/
def catalogEntries (v : Json.Value) : List (String × Value) :=
  [("catalog", .table [("include", .ofJson v)])]

theorem ofText_catalog : Path.ofText "catalog" = { first := "catalog" } := by
  decide

theorem sayings_catalogEntries (k : Key) (v : Json.Value) :
    k.sayings (catalogEntries v) = if k = .included then [⟨[], .ofJson v⟩] else [] := by
  rw [catalogEntries, Key.sayings, List.flatMap_singleton, ofText_catalog]
  cases k <;> rfl

theorem tabular_catalogEntries (v : Json.Value) : Tabular (catalogEntries v) := by
  rintro e hmem k -
  obtain rfl := List.mem_singleton.mp hmem
  exact .inl ⟨by rw [ofText_catalog], _, rfl⟩

theorem sameBut_catalogEntries (v v' : Json.Value) :
    SameBut .included (catalogEntries v) (catalogEntries v') := by
  intro other hother
  rw [sayings_catalogEntries, sayings_catalogEntries, if_neg hother, if_neg hother]

theorem readablyGiven_catalogEntries {v : Json.Value}
    (hv : Key.included.Readable (some (.ofJson v))) :
    Key.included.ReadablyGiven (catalogEntries v) where
  ne_nil := by simp [sayings_catalogEntries]
  whole := by simp [sayings_catalogEntries]
  readable := by simpa [sayings_catalogEntries] using hv

/-- The file under another one. -/
def catalogLayers (v : Json.Value) (site : ConfigFile) : Layers where
  base := catalogFile v
  site

section

variable {v v' : Json.Value} {site : ConfigFile} {said : List (String × Value)}
  (hsite : site.entries = .ok said)

include hsite

theorem layer_catalogLayers {p : Place} {entries : List (String × Value)}
    (h : (catalogLayers v site).layer p = .ok entries) :
    entries = catalogEntries v ∨ entries = said ∨ entries = [] := by
  cases p
  case site => exact .inr (.inl (Except.ok.inj (h.symm.trans hsite)))
  all_goals cases h
  · exact .inl rfl
  · exact .inr (.inr rfl)
  · exact .inr (.inr rfl)

theorem tabular_catalogLayers (hsaid : Tabular said) : (catalogLayers v site).Tabular := by
  intro p entries h
  obtain rfl | rfl | rfl := layer_catalogLayers hsite h
  · exact tabular_catalogEntries v
  · exact hsaid
  · exact nofun

theorem revalued_catalogLayers (hsaid : Tabular said)
    (hv : Key.included.Readable (some (.ofJson v)))
    (hv' : Key.included.Readable (some (.ofJson v'))) :
    Layers.Revalued .included (catalogLayers v site) (catalogLayers v' site) where
  tabular := tabular_catalogLayers hsite hsaid
  tabular' := tabular_catalogLayers hsite hsaid
  varied := fun p => by
    cases p
    case base =>
      right
      show Paired _ (.ok (catalogEntries v)) (.ok (catalogEntries v'))
      exact .ok ⟨sameBut_catalogEntries v v', readablyGiven_catalogEntries hv,
        readablyGiven_catalogEntries hv'⟩
    all_goals exact .inl rfl

end

theorem decided_catalogLayers (v v' w : Json.Value) :
    Layers.Decided .included .site (catalogLayers v (catalogFile w))
      (catalogLayers v' (catalogFile w)) where
  tabular := tabular_catalogLayers rfl (tabular_catalogEntries w)
  tabular' := tabular_catalogLayers rfl (tabular_catalogEntries w)
  given := ⟨catalogEntries w, rfl, .ofJson w, by simp [sayings_catalogEntries]⟩
  same := fun q hq => by
    cases q
    case base => exact absurd hq (by decide)
    all_goals rfl
  weaker := fun q hq => by
    cases q
    case base => exact .ok (sameBut_catalogEntries v v')
    all_goals exact absurd hq (by decide)

/-- Something that is no list does no harm under another file, and an option goes over any list. -/
theorem stronger_places_decide_included :
    load (catalogLayers (.bool true) (catalogFile (.array [.string "p"]))) {} =
        load (catalogLayers (.array []) (catalogFile (.array [.string "p"]))) {} ∧
      load (catalogLayers (.array [.string "p"]) .absent)
          (CommandLine.Given.entries [("catalog-include", "watched")]) =
        load (catalogLayers (.array []) .absent)
          (CommandLine.Given.entries [("catalog-include", "watched")]) ∧
      (CommandLine.Given.entries [("catalog-include", "q"), ("log-level", "warn")]).get? .included =
        some ["q"] := by
  obtain ⟨hlayers, hoptions, hothers⟩ := stronger_places_decide .included
  refine ⟨?_, ?_, ?_⟩
  · exact hlayers .site _ _ (decided_catalogLayers _ _ _) {}
  · refine hoptions .serve ["--catalog-include", "watched"] _ _ "watched" rfl rfl (by simp) _ _
      (revalued_catalogLayers rfl nofun ⟨_, rfl⟩ ⟨_, rfl⟩) fun p entries h s hs => ?_
    obtain rfl | rfl | rfl := layer_catalogLayers rfl h
    · rw [sayings_catalogEntries, if_pos rfl] at hs
      exact Saying.placeless_of_whole (congrArg Saying.steps (List.mem_singleton.mp hs))
    · cases hs
    · cases hs
  · exact hothers "log-level" "warn" [("catalog-include", "q")] [] {} (by rintro _ ⟨⟩; decide)

/-- A file that says something of the third place of the list. -/
def placeFile : ConfigFile :=
  .content (.object [("catalog.include[2]", .string "m")])

theorem ofText_place :
    Path.ofText "catalog.include[2]" = ⟨"catalog", [.entry "include", .item 2]⟩ := by
  decide

/-- The list of a weaker layer matters although an option gives another one: where it is too short
for a place that is named, it cannot be read. -/
theorem weaker_lists_matter :
    Layers.Revalued .included (catalogLayers (.array [.string "p"]) placeFile)
        (catalogLayers (.array [.string "p", .string "q", .string "r"]) placeFile) ∧
      CommandLine.readCommand .serve ["--catalog-include", "watched"] =
        .ok [("catalog-include", "watched")] ∧
      load (catalogLayers (.array [.string "p"]) placeFile)
          (CommandLine.Given.entries [("catalog-include", "watched")]) ≠
        load (catalogLayers (.array [.string "p", .string "q", .string "r"]) placeFile)
          (CommandLine.Given.entries [("catalog-include", "watched")]) := by
  refine ⟨revalued_catalogLayers rfl ?_ ⟨_, rfl⟩ ⟨_, rfl⟩, rfl, ?_⟩
  · rintro e hmem k -
    obtain rfl := List.mem_singleton.mp hmem
    exact .inr ⟨"include", [.item 2], by rw [ofText_place]⟩
  · decide

end FreshTag.Settings
