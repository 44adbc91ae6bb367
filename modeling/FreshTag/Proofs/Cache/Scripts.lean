/-
FreshTag/Proofs/Cache/Scripts.lean

The scripts of the shared cache, on a server that refuses nothing.  The four
families of keys under a prefix never meet, so a keyspace shows two things
(`Shows`): which keys lead to which identities, from either side, and the text
that is stored under each identity.  Adding puts one link and one text
(`Shows.add`); removing a key takes out every identity behind it, with all
links to it (`Shows.remove`).
-/
import FreshTag.Cache.SharedStore
import FreshTag.Proofs.Cache.Commands

namespace FreshTag.Cache

open Redis (Keyspace HoldsSet Yields)

/-! ### The families of keys -/

namespace KeyPrefix

variable (p : KeyPrefix)

theorem lookup_inj {k k' : String} : p.lookup k = p.lookup k' ↔ k = k' := by
  simp [lookup]

theorem value_inj {i i' : String} : p.value i = p.value i' ↔ i = i' := by
  simp [value]

theorem aliases_inj {i i' : String} : p.aliases i = p.aliases i' ↔ i = i' := by
  simp [aliases]

theorem lookup_ne_value (k i : String) : p.lookup k ≠ p.value i := by
  intro h
  have hl := congrArg String.toList h
  simp [lookup, value] at hl

theorem lookup_ne_aliases (k i : String) : p.lookup k ≠ p.aliases i := by
  intro h
  have hl := congrArg String.toList h
  simp [lookup, aliases] at hl

theorem lookup_ne_index (k : String) : p.lookup k ≠ p.index := by
  intro h
  have hl := congrArg String.toList h
  simp [lookup, index] at hl

theorem value_ne_aliases (i j : String) : p.value i ≠ p.aliases j := by
  intro h
  have hl := congrArg String.toList h
  simp [value, aliases] at hl

theorem value_ne_index (i : String) : p.value i ≠ p.index := by
  intro h
  have hl := congrArg String.toList h
  simp [value, index] at hl

theorem aliases_ne_index (i : String) : p.aliases i ≠ p.index := by
  intro h
  have hl := congrArg String.toList h
  simp [aliases, index] at hl

end KeyPrefix

/-! ### What a keyspace shows -/

variable {p : KeyPrefix} {space : Keyspace} {link : String → String → Prop}
variable {text : String → Option String}

/-- The keyspace holds the links, by key and by identity, and the texts of the identities. -/
structure Shows (p : KeyPrefix) (space : Keyspace) (link : String → String → Prop)
    (text : String → Option String) : Prop where
  lookup : ∀ key, HoldsSet space (p.lookup key) fun i => link key i
  aliases : ∀ i, HoldsSet space (p.aliases i) fun key => link key i
  value : ∀ i, space.get? (p.value i) = (text i).map .text
  index : HoldsSet space p.index fun i => ∃ t, text i = some t

theorem shows_empty (p : KeyPrefix) : Shows p {} (fun _ _ => False) fun _ => none where
  lookup key := Redis.holdsSet_empty _
  aliases i := Redis.holdsSet_empty _
  value i := rfl
  index := (Redis.holdsSet_empty p.index).congr rfl (by simp)

namespace Shows

theorem congr (h : Shows p space link text) {link' : String → String → Prop}
    {text' : String → Option String} (hlink : ∀ k i, link k i ↔ link' k i)
    (htext : ∀ i, text i = text' i) : Shows p space link' text' where
  lookup key := (h.lookup key).congr rfl (hlink key)
  aliases i := (h.aliases i).congr rfl fun key => hlink key i
  value i := htext i ▸ h.value i
  index := h.index.congr rfl fun i => by rw [htext]

/-- Adding links the key to the identity of the etag, and puts the text of the etag there. -/
theorem add (h : Shows p space link text) (key : String) (etag : WeakEtag) :
    ∃ space', Yields (SharedStore.add p key etag) space () space' ∧
      Shows p space' (fun k i => link k i ∨ (k = key ∧ i = etag.identity))
        fun i => if i = etag.identity then some etag.text else text i := by
  -- four commands, one for each family of keys; none touches the family of another
  obtain ⟨s₁, hrun₁, hset₁, hframe₁⟩ := (h.lookup key).sAdd etag.identity
  let s₂ := s₁.set (p.value etag.identity) (.text etag.text)
  have hframe₂ : ∀ k, k ≠ p.value etag.identity → s₂.get? k = s₁.get? k := by
    intro k hk
    rw [Dict.get?_set, if_neg hk]
  have haliases₂ : ∀ i, s₂.get? (p.aliases i) = space.get? (p.aliases i) := by
    intro i
    rw [hframe₂ _ (p.value_ne_aliases _ i).symm, hframe₁ _ (p.lookup_ne_aliases key i).symm]
  obtain ⟨s₃, hrun₃, hset₃, hframe₃⟩ :=
    ((h.aliases etag.identity).congr (haliases₂ _) fun _ => Iff.rfl).sAdd key
  have hindex₃ : s₃.get? p.index = space.get? p.index := by
    rw [hframe₃ _ (p.aliases_ne_index _).symm, hframe₂ _ (p.value_ne_index _).symm,
      hframe₁ _ (p.lookup_ne_index key).symm]
  obtain ⟨s₄, hrun₄, hset₄, hframe₄⟩ :=
    (h.index.congr hindex₃ fun _ => Iff.rfl).sAdd etag.identity
  refine ⟨s₄, ?_, ?_⟩
  · exact (Yields.idle .connect space).bind <| (Yields.idle .evalSha space).bind <| hrun₁.bind <|
      (Redis.yields_set _ _ s₁).bind <| hrun₃.bind hrun₄
  · refine ⟨?_, ?_, ?_, ?_⟩
    · intro k
      have hget : s₄.get? (p.lookup k) = s₁.get? (p.lookup k) := by
        rw [hframe₄ _ (p.lookup_ne_index k), hframe₃ _ (p.lookup_ne_aliases k _),
          hframe₂ _ (p.lookup_ne_value k _)]
      by_cases hk : k = key
      · subst hk
        exact hset₁.congr hget fun i => by simp [or_comm]
      · refine (h.lookup k).congr (hget.trans (hframe₁ _ ?_)) fun i => by simp [hk]
        rwa [ne_eq, p.lookup_inj]
    · intro i
      have hget : s₄.get? (p.aliases i) = s₃.get? (p.aliases i) :=
        hframe₄ _ (p.aliases_ne_index i)
      by_cases hi : i = etag.identity
      · subst hi
        exact hset₃.congr hget fun k => by simp [or_comm]
      · refine (h.aliases i).congr ?_ fun k => by simp [hi]
        rw [hget, hframe₃ _ (by rwa [ne_eq, p.aliases_inj]), haliases₂]
    · intro i
      have hget : s₄.get? (p.value i) = s₂.get? (p.value i) := by
        rw [hframe₄ _ (p.value_ne_index i), hframe₃ _ (p.value_ne_aliases i _)]
      rw [hget]
      by_cases hi : i = etag.identity
      · rw [hi, Dict.get?_set, if_pos rfl, if_pos rfl]
        rfl
      · rw [hframe₂ _ (by rwa [ne_eq, p.value_inj]), if_neg hi,
          hframe₁ _ (p.lookup_ne_value key i).symm, h.value]
    · refine hset₄.congr rfl fun i => ?_
      by_cases hi : i = etag.identity <;> simp [hi]

/-- Taking an identity out of the sets behind some keys changes nothing else. -/
theorem unlink (hlookup : ∀ k, HoldsSet space (p.lookup k) fun i => link k i) (identity : String)
    (keys : List String) :
    ∃ space', Yields (keys.forM fun key => Redis.sRem (p.lookup key) identity) space () space' ∧
      (∀ k, HoldsSet space' (p.lookup k) fun i => link k i ∧ ¬ (k ∈ keys ∧ i = identity)) ∧
      ∀ k, (∀ key, k ≠ p.lookup key) → space'.get? k = space.get? k := by
  -- on the keys; each command takes one link away, so the links are generalised
  induction keys generalizing space link with
  | nil =>
    refine ⟨space, .pure (), ?_, fun k _ => rfl⟩
    exact fun k => (hlookup k).congr rfl (by simp)
  | cons key keys ih =>
    obtain ⟨s₁, hrun₁, hset₁, hframe₁⟩ := (hlookup key).sRem identity
    have hlookup₁ : ∀ k,
        HoldsSet s₁ (p.lookup k) fun i => link k i ∧ ¬ (k = key ∧ i = identity) := by
      intro k
      by_cases hk : k = key
      · subst hk
        exact hset₁.congr rfl (by simp)
      · refine (hlookup k).congr (hframe₁ _ ?_) (by simp [hk])
        rwa [ne_eq, p.lookup_inj]
    obtain ⟨s₂, hrun₂, hlookup₂, hframe₂⟩ := ih hlookup₁
    refine ⟨s₂, hrun₁.bind hrun₂, ?_, ?_⟩
    · refine fun k => (hlookup₂ k).congr rfl fun i => ?_
      rw [List.mem_cons]
      tauto
    · intro k hk
      rw [hframe₂ k hk, hframe₁ k (hk key)]

/-- Dropping an identity takes out its text and every link to it. -/
theorem drop (h : Shows p space link text) (identity : String) :
    ∃ space', Yields (SharedStore.drop p identity) space () space' ∧
      Shows p space' (fun k i => link k i ∧ i ≠ identity)
        fun i => if i = identity then none else text i := by
  -- the keys are listed before their links are cut, and the list of them goes last but one
  obtain ⟨keys, hrun₁, -, hkeys⟩ := (h.aliases identity).sMembers
  obtain ⟨s₂, hrun₂, hlookup₂, hframe₂⟩ := unlink h.lookup identity keys
  obtain ⟨s₃, hrun₃, hget₃⟩ := Redis.yields_del [p.aliases identity, p.value identity] s₂
  have hframe₃ : ∀ k, k ≠ p.aliases identity → k ≠ p.value identity →
      s₃.get? k = s₂.get? k := by
    intro k ha hv
    rw [hget₃, if_neg (by simp [ha, hv])]
  have hindex₃ : s₃.get? p.index = space.get? p.index := by
    rw [hframe₃ _ (p.aliases_ne_index _).symm (p.value_ne_index _).symm,
      hframe₂ _ fun key => (p.lookup_ne_index key).symm]
  obtain ⟨s₄, hrun₄, hset₄, hframe₄⟩ := (h.index.congr hindex₃ fun _ => Iff.rfl).sRem identity
  refine ⟨s₄, hrun₁.bind <| hrun₂.bind <| hrun₃.bind hrun₄, ?_, ?_, ?_, ?_⟩
  · intro k
    refine (hlookup₂ k).congr ?_ fun i => ?_
    · rw [hframe₄ _ (p.lookup_ne_index k),
        hframe₃ _ (p.lookup_ne_aliases k _) (p.lookup_ne_value k _)]
    · -- every key with a link to the identity was listed
      rw [hkeys]
      constructor
      · rintro ⟨hlink, hnot⟩
        exact ⟨hlink, fun hi => hnot ⟨hi ▸ hlink, hi⟩⟩
      · rintro ⟨hlink, hi⟩
        exact ⟨hlink, fun hboth => hi hboth.2⟩
  · intro i
    by_cases hi : i = identity
    · -- no link of the identity is left, and its list is deleted
      subst hi
      refine ⟨[], ?_, List.Pairwise.nil, by simp⟩
      rw [hframe₄ _ (p.aliases_ne_index i), hget₃]
      simp
    · refine (h.aliases i).congr ?_ fun k => by simp [hi]
      rw [hframe₄ _ (p.aliases_ne_index i), hframe₃ _ (by rwa [ne_eq, p.aliases_inj])
        (p.value_ne_aliases _ i).symm, hframe₂ _ fun key => (p.lookup_ne_aliases key i).symm]
  · intro i
    rw [hframe₄ _ (p.value_ne_index i)]
    by_cases hi : i = identity
    · subst hi
      rw [hget₃]
      simp
    · rw [if_neg hi, hframe₃ _ (p.value_ne_aliases i _) (by rwa [ne_eq, p.value_inj]),
        hframe₂ _ fun key => (p.lookup_ne_value key i).symm, h.value]
  · refine hset₄.congr rfl fun i => ?_
    by_cases hi : i = identity <;> simp [hi]

theorem drop_all (h : Shows p space link text) (identities : List String) :
    ∃ space', Yields (identities.forM (SharedStore.drop p)) space () space' ∧
      Shows p space' (fun k i => link k i ∧ i ∉ identities)
        fun i => if i ∈ identities then none else text i := by
  induction identities generalizing space link text with
  | nil => exact ⟨space, .pure (), h.congr (by simp) (by simp)⟩
  | cons identity identities ih =>
    obtain ⟨s₁, hrun₁, h₁⟩ := h.drop identity
    obtain ⟨s₂, hrun₂, h₂⟩ := ih h₁
    refine ⟨s₂, hrun₁.bind hrun₂, h₂.congr ?_ ?_⟩
    · intro k i
      rw [List.mem_cons]
      tauto
    · intro i
      by_cases hi : i = identity <;> simp [hi]

/-- Removing a key takes out every identity behind it, and tells whether there was one. -/
theorem remove (h : Shows p space link text) (key : String) :
    ∃ (found : Bool) (space' : Keyspace) (identities : List String),
      Yields (SharedStore.remove p key) space found space' ∧
      (∀ i, i ∈ identities ↔ link key i) ∧ (found = true ↔ ∃ i, link key i) ∧
      Shows p space' (fun k i => link k i ∧ i ∉ identities)
        fun i => if i ∈ identities then none else text i := by
  obtain ⟨identities, hrun₁, -, hmem⟩ := (h.lookup key).sMembers
  by_cases hnil : identities = []
  · subst hnil
    refine ⟨false, space, [], ?_, hmem, by simp [← hmem], h.congr (by simp) (by simp)⟩
    exact (Yields.idle .connect space).bind <| (Yields.idle .evalSha space).bind <|
      hrun₁.bind (.pure false)
  · have hempty : identities.isEmpty = false := by simpa using hnil
    obtain ⟨s₂, hrun₂, h₂⟩ := h.drop_all identities
    obtain ⟨s₃, hrun₃, hget₃⟩ := Redis.yields_del [p.lookup key] s₂
    refine ⟨true, s₃, identities, ?_, hmem, ?_, ?_⟩
    · refine (Yields.idle .connect space).bind <| (Yields.idle .evalSha space).bind <|
        hrun₁.bind ?_
      rw [hempty]
      exact hrun₂.bind (hrun₃.bind (.pure true))
    · simpa [← hmem] using List.exists_mem_of_ne_nil _ hnil
    · -- the last removal has taken the key out already
      have hsame : ∀ k, s₃.get? k = s₂.get? k := by
        intro k
        rw [hget₃]
        split
        · next hk =>
          obtain ⟨ms, hms, -, hms'⟩ := h₂.lookup key
          have hno : ms = [] := by
            rw [List.eq_nil_iff_forall_not_mem]
            intro i hi
            obtain ⟨hlink, hnot⟩ := (hms' i).mp hi
            exact hnot ((hmem i).mpr hlink)
          rw [List.mem_singleton.mp hk, hms, if_pos hno]
        · rfl
      exact ⟨fun k => (h₂.lookup k).congr (hsame _) fun _ => Iff.rfl,
        fun i => (h₂.aliases i).congr (hsame _) fun _ => Iff.rfl,
        fun i => (hsame _).trans (h₂.value i), h₂.index.congr (hsame _) fun _ => Iff.rfl⟩

/-- A key is found exactly if an identity is behind it. -/
theorem contains (h : Shows p space link text) (key : String) :
    ∃ found, Yields (SharedStore.contains p key) space found space ∧
      (found = true ↔ ∃ i, link key i) := by
  obtain ⟨found, hrun, hfound⟩ := (h.lookup key).exists?
  exact ⟨found, (Yields.idle .connect space).bind hrun, hfound⟩

/-- The size is the number of the identities with a text. -/
theorem size (h : Shows p space link text) :
    ∃ identities : List String, Yields (SharedStore.size p) space identities.length space ∧
      identities.Nodup ∧ ∀ i, i ∈ identities ↔ ∃ t, text i = some t := by
  obtain ⟨identities, hrun, hmem⟩ := h.index.sCard
  exact ⟨identities, (Yields.idle .connect space).bind hrun, hmem⟩

/-- The text of an identity behind the key is read, if there is such an identity. -/
theorem getText (h : Shows p space link text) (key : String)
    (htext : ∀ i, link key i → ∃ t, text i = some t) :
    ∃ answer, Yields (SharedStore.getText p key) space answer space ∧
      (answer = none ↔ ∀ i, ¬ link key i) ∧
      ∀ t, answer = some t → ∃ i, link key i ∧ text i = some t := by
  obtain ⟨chosen, hrun, hnone, hsome⟩ := (h.lookup key).sRandMember
  rcases chosen with - | i
  · exact ⟨none, (Yields.idle .connect space).bind (hrun.bind (.pure none)), hnone, by simp⟩
  · have hlink : link key i := hsome i rfl
    obtain ⟨t, ht⟩ := htext i hlink
    have hread : Yields (Redis.get (p.value i)) space (some t) space :=
      Redis.yields_get_text (by rw [h.value, ht]; rfl)
    refine ⟨some t, (Yields.idle .connect space).bind (hrun.bind hread), ?_, ?_⟩
    · simpa using ⟨i, hlink⟩
    · rintro _ ⟨rfl⟩
      exact ⟨i, hlink, ht⟩

end Shows

end FreshTag.Cache
