/-
FreshTag/Proofs/Change/ReadBack.lean

Which etags a listener has put on a server can be read back.  The text of an
etag holds the row inside of an object, so the row stands one level deeper there
than in the change that brought it.  A row that was added comes back exactly if
it is nested at most 126 deep and the text of each of its values is read as the
value (`added_rows_read_back_iff`).

Alone a row may be nested 127 deep.  Such a row is added, and then every look at
its etag fails (`deepOak_is_lost`).
-/
import FreshTag.Proofs.Change.Caching
import FreshTag.Proofs.Change.Fills
import FreshTag.Proofs.Etag.ReadBack

namespace FreshTag

open Cache (KeyPrefix Store Within)
open Json (Value)

namespace Change

variable {p : KeyPrefix} {catalog : Catalog} {now : String} {e : Event} {c : Cache}

/-! ### Identities that lead to themselves -/

/-- Whatever was refused, after calls that name no version with a colon an identity leads to itself
alone. -/
theorem within_performCalls {refuses : Nat → Redis.Command → Bool} {calls : List Call}
    (hcolon : ∀ call ∈ calls, call.ColonFree)
    (hc : c.store.On p (Within p fun key i => key = i ∨ ColonFree key) refuses) :
    (performCalls calls c).store.On p (Within p fun key i => key = i ∨ ColonFree key) refuses :=
  performCalls_run (fun call hcall _ hc => hc.run_adding (call.addsOnly (hcolon call hcall))) hc

theorem eq_identity_of_leads {refuses : Nat → Redis.Command → Bool} {store : Store}
    (h : store.On p (Within p fun key i => key = i ∨ ColonFree key) refuses) {etag : WeakEtag}
    {i : String} (hleads : store.Leads etag.identity i) : i = etag.identity := by
  rcases h.link_of_leads hleads with heq | hcolon
  · exact heq.symm
  · exact absurd rfl (WeakEtag.identity_ne_of_colonFree hcolon etag)

/-! ### Reading what was added -/

theorem Event.Produces.row {etag : WeakEtag} (h : e.Produces catalog now etag) :
    ∃ row, etag.data = some row ∧ Json.parseMap e.row = .ok row := by
  obtain ⟨-, hrow, -, -, -⟩ := h
  exact ⟨_, rfl, hrow⟩

theorem Event.Produces.wellFormed {etag : WeakEtag} (h : e.Produces catalog now etag)
    {row : Json.Members} (hdata : etag.data = some row) : (Value.object row).WellFormed := by
  obtain ⟨row', hdata', hrow⟩ := h.row
  obtain rfl := Option.some.inj (hdata'.symm.trans hdata)
  exact Json.wellFormed_parseMap hrow

theorem decoded_eq_ok_iff {text : String} {etag : WeakEtag} :
    Cache.decoded text = .ok (some etag) ↔ WeakEtag.parse text = .ok etag := by
  unfold Cache.decoded
  rcases WeakEtag.parse text with cause | f <;> simp

section

variable {server : Redis.Server} (hstore : c.store = .shared p server)
  (hworking : c.store.Working)
  (halone : ∀ etag, e.Produces catalog now etag →
    ∀ i, c.store.Leads etag.identity i → i = etag.identity)
  (hadded : (apply catalog now e c).1.added = true)

include hstore hworking halone hadded

/-- Where a change was added, its etag is stored, and if nothing else was behind the identity of the
etag, a look at the identity reads the text of the etag. -/
theorem find_added :
    ∃ etag after, e.Produces catalog now etag ∧ after = (apply catalog now e c).2 ∧
      after.store.Stores etag.identity etag ∧
      ((Cache.find etag.identity).run after).1 = Cache.decoded etag.text := by
  obtain ⟨etag, hproduces, hleads, -, hstores⟩ := apply_links hadded
  let link (key i : String) : Prop := key = etag.identity → i = etag.identity
  have hbefore : c.store.On p (Within p link) fun _ _ => false := by
    refine ⟨server, hstore, fun key ms hms i hi hkey => halone etag hproduces i ?_, ?_⟩
    · rw [hstore]
      exact ⟨ms, hkey ▸ hms, hi⟩
    · rw [hstore] at hworking
      exact hworking
  -- the change adds no etag but its own, so the identity leads to nothing else afterwards
  have hafter : (apply catalog now e c).2.store.On p (Within p link) fun _ _ => false := by
    rw [← Programs.run_apply]
    refine hbefore.run_adding ((Programs.addsOnly_apply catalog now e).mono ?_)
    rintro key f ⟨hf, -⟩ -
    rw [hf.unique hproduces]
  obtain ⟨server', hserver', -⟩ := id hafter
  exact ⟨etag, _, hproduces, rfl, hstores, Cache.find_alone hserver' hafter.working hleads
    (fun j hj => hafter.link_of_leads hj rfl) hstores⟩

/-- A row that was added on a server is read back with its etag exactly if it is nested at most 126
deep and the text of each of its values is read as that value.  The four texts of the etag are the
same in any case, and a row that is nested deeper makes every look at the etag fail. -/
theorem added_rows_read_back_iff :
    ∃ etag row after, e.Produces catalog now etag ∧ Json.parseMap e.row = .ok row ∧
      etag.data = some row ∧ after = (apply catalog now e c).2 ∧
      (((Cache.find etag.identity).run after).1 = .ok (some etag) ↔
        (Value.object row).depth ≤ 126 ∧ ∀ u ∈ Json.partsOfMembers row, u.Stable) ∧
      (∀ found, ((Cache.find etag.identity).run after).1 = .ok found →
        ∃ data, found = some { etag with data := data }) ∧
      ((∀ u ∈ Json.partsOfMembers row, u.Stable) → 126 < (Value.object row).depth →
        ((Cache.find etag.identity).run after).1 = .error (.undecodable .recursionLimit)) := by
  obtain ⟨etag, after, hproduces, hafter, -, hfind⟩ := find_added hstore hworking halone hadded
  obtain ⟨row, hdata, hrow⟩ := hproduces.row
  refine ⟨etag, row, after, hproduces, hrow, hdata, hafter, ?_, fun found hfound => ?_,
    fun hstable hdeep => ?_⟩
  · rw [hfind, decoded_eq_ok_iff, WeakEtag.parse_text_eq_ok_iff fun _ => hproduces.wellFormed]
    simp [hdata]
  · rw [hfind, Cache.decoded, WeakEtag.parse_text fun _ => hproduces.wellFormed] at hfound
    rcases hreread : etag.rereadRow (Json.parseWithin etag.text.length) with cause | data
    · simp [hreread, Except.map] at hfound
    · simp only [hreread, Except.map, Except.ok.injEq] at hfound
      exact ⟨data, hfound.symm⟩
  · have hformed := hproduces.wellFormed hdata
    rw [hfind, Cache.decoded, WeakEtag.parse_text_of_stable hdata hformed hstable,
      if_neg (Nat.not_le.mpr hdeep)]

/-- So a row comes back if it is nested at most 126 deep, holds no floating-point number, and no
object in it has `embeddedKey` as its first key. -/
theorem whole_rows_read_back
    (hwhole : ∀ row, Json.parseMap e.row = .ok row → (Value.object row).depth ≤ 126 ∧
      ∀ u ∈ Json.partsOfMembers row, (∀ x, u ≠ .number (.float x)) ∧
        ∀ members, u = .object members → Json.mark? members = none) :
    ∃ etag, e.Produces catalog now etag ∧
      ((Cache.find etag.identity).run (apply catalog now e c).2).1 = .ok (some etag) := by
  obtain ⟨etag, after, hproduces, rfl, -, hfind⟩ := find_added hstore hworking halone hadded
  refine ⟨etag, hproduces, ?_⟩
  rw [hfind, decoded_eq_ok_iff, WeakEtag.parse_text_eq_ok_iff fun _ => hproduces.wellFormed]
  intro row hdata
  obtain ⟨row', hdata', hrow⟩ := hproduces.row
  obtain rfl := Option.some.inj (hdata'.symm.trans hdata)
  -- what is inside of a row that was read is well-formed, so it is stable unless excluded
  obtain ⟨hdepth, hplain⟩ := hwhole row' hrow
  obtain ⟨-, hformed⟩ := Json.forall_parts_object.mp (hproduces.wellFormed hdata)
  exact ⟨hdepth, fun u hu => (hformed u hu).stable (hplain u hu).1 (hplain u hu).2⟩

end

/-- An oak that grows from version 9 to version 10. -/
def growingOak : Event :=
  plantChange .update (some "9") (some "10") "oak"

/-- A cache on a server where the oak was remembered at version 9. -/
def rememberedOak : Cache :=
  performCalls [.remember (plantEtag "oak" "9")] { store := .shared ⟨"fresh"⟩ {} }

theorem produces_growingOak : growingOak.Produces plants "" (plantEtag "oak" "10") :=
  Event.produced?_eq_some_iff.mp (by cbv)

theorem on_rememberedOak : rememberedOak.store.On ⟨"fresh"⟩
    (Within ⟨"fresh"⟩ fun key i => key = i ∨ ColonFree key) fun _ _ => false := by
  refine within_performCalls ?_ ⟨{}, rfl, Cache.within_empty _ _, rfl⟩
  rw [List.forall_mem_singleton]
  show ColonFree "9"
  decide

/-- The oak that has grown is read back. -/
theorem growingOak_is_read_back :
    ∃ after, after = (apply plants "" growingOak rememberedOak).2 ∧
      (apply plants "" growingOak rememberedOak).1.added = true ∧
      ((Cache.find "public.plants:oak:10").run after).1 = .ok (some (plantEtag "oak" "10")) := by
  have hadded : (apply plants "" growingOak rememberedOak).1.added = true := by cbv
  have hid : (plantEtag "oak" "10").identity = "public.plants:oak:10" := by decide
  obtain ⟨server, hserver, -⟩ := id on_rememberedOak
  obtain ⟨etag, row, after, hproduces, -, hdata, hafter, hback, -⟩ :=
    added_rows_read_back_iff hserver on_rememberedOak.working
      (fun etag _ i => eq_identity_of_leads on_rememberedOak) hadded
  obtain rfl := hproduces.unique produces_growingOak
  rw [hid, ← Option.some.inj hdata] at hback
  refine ⟨after, hafter, hadded, hback.mpr ⟨by decide, ?_⟩⟩
  simp [Json.partsOfMembers, Value.parts, Value.Stable]

/-! ### A row that is nested too deep -/

/-- An empty array inside of some others. -/
def nested : Nat → Value
  | 0 => .array []
  | n + 1 => .array [nested n]

theorem depth_nested (n : Nat) : (nested n).depth = n + 1 := by
  induction n with
  | zero => rfl
  | succ n ih => simp [nested, Value.depth, Json.depthOfItems, ih]

/-- Inside of arrays there are arrays and nothing else. -/
theorem exists_of_mem_parts_nested {u : Value} {n : Nat} (h : u ∈ (nested n).parts) :
    ∃ items, u = .array items := by
  induction n with
  | zero => exact ⟨[], by simpa [nested, Value.parts, Json.partsOfItems] using h⟩
  | succ n ih =>
    rw [nested, Value.parts, List.mem_cons] at h
    rcases h with rfl | h
    · exact ⟨_, rfl⟩
    · exact ih (by simpa [Json.partsOfItems] using h)

/-- A row that is nested as deep as a row may be. -/
def deepRow : Json.Members :=
  [("id", .string "oak"), ("note", nested 125)]

theorem depth_deepRow : (Value.object deepRow).depth = 127 := by
  simp [deepRow, Value.depth, Json.depthOfMembers, depth_nested]

theorem part_deepRow {u : Value} (h : u ∈ Json.partsOfMembers deepRow) :
    u = .string "oak" ∨ ∃ items, u = .array items := by
  simp only [deepRow, Json.partsOfMembers, Value.parts, List.append_nil, List.mem_append,
    List.mem_singleton] at h
  exact h.imp_right exists_of_mem_parts_nested

theorem stable_deepRow : ∀ u ∈ Json.partsOfMembers deepRow, u.Stable := by
  intro u hu
  rcases part_deepRow hu with rfl | ⟨items, rfl⟩ <;> trivial

theorem wellFormed_deepRow : (Value.object deepRow).WellFormed := by
  refine Json.forall_parts_object.mpr ⟨?_, fun u hu => ?_⟩
  · refine List.pairwise_pair.mpr ?_
    show "id" < "note"
    decide
  · rcases part_deepRow hu with rfl | ⟨items, rfl⟩ <;> trivial

/-- An oak that is new at version 10, with a note. -/
def deepOak : Event :=
  { newOak with row := (Value.object deepRow).text }

/-- Its etag, of a day on which the listener put it on the server. -/
def deepOakEtag : WeakEtag :=
  { plantEtag "oak" "10" with
    lastModified := "Sun, 06 Nov 1994 08:49:37 GMT", data := some deepRow }

theorem parse_deepOak : Json.parseMap deepOak.row = .ok deepRow := by
  show Json.parseMap (Value.object deepRow).text = _
  rw [Json.parseMap_text wellFormed_deepRow stable_deepRow, depth_deepRow, if_pos (by decide)]

theorem produces_deepOak : deepOak.Produces plants deepOakEtag.lastModified deepOakEtag := by
  have htable : plants.lookup deepOak.id =
      .ok (some ((Catalog.Table.ofName "public" "plants").withIdColumn "id" .text)) := by
    show plants.lookup "public.plants" = _
    cbv
  exact .intro (Or.inl rfl) parse_deepOak rfl htable rfl

/-- The text of the etag holds the row one level too deep. -/
theorem parse_deepOakEtag : WeakEtag.parse deepOakEtag.text = .error .recursionLimit := by
  rw [WeakEtag.parse_text_of_stable rfl wellFormed_deepRow stable_deepRow, depth_deepRow,
    if_neg (by decide)]

/-- The row is read, its etag is added and its text is stored, but it cannot be read back. -/
theorem deepOak_is_lost :
    ∃ after, after = (apply plants deepOakEtag.lastModified deepOak
        { store := .shared ⟨"fresh"⟩ {} }).2 ∧
      deepOak.Produces plants deepOakEtag.lastModified deepOakEtag ∧
      (apply plants deepOakEtag.lastModified deepOak
        { store := .shared ⟨"fresh"⟩ {} }).1.added = true ∧
      after.store.Stores "public.plants:oak:10" deepOakEtag ∧
      WeakEtag.parse deepOakEtag.text = .error .recursionLimit ∧
      ((Cache.find "public.plants:oak:10").run after).1 =
        .error (.undecodable .recursionLimit) := by
  have hopened : Store.Carries .empty (.shared ⟨"fresh"⟩ {}) := (Store.Opened.shared _ 0).carries
  have hid : deepOakEtag.identity = "public.plants:oak:10" := by decide
  have hadded : (apply plants deepOakEtag.lastModified deepOak
      { store := .shared ⟨"fresh"⟩ {} }).1.added = true := by
    -- an empty server carries no links, and the change takes its steps there as anywhere
    rw [(moves_apply Store.Carries.steps plants _ deepOak .empty _ hopened).1]
    exact outcome_added_iff.mpr ⟨_, produces_deepOak⟩
  have halone : ∀ etag, deepOak.Produces plants deepOakEtag.lastModified etag → ∀ i,
      Store.Leads (.shared ⟨"fresh"⟩ {}) etag.identity i → i = etag.identity := by
    rintro etag - i ⟨ms, hms, -⟩
    cases hms
  obtain ⟨etag, after, hproduces, hafter, hstores, hfind⟩ :=
    find_added (c := { store := .shared ⟨"fresh"⟩ {} }) rfl rfl halone hadded
  obtain rfl := hproduces.unique produces_deepOak
  rw [hid] at hfind hstores
  refine ⟨after, hafter, hproduces, hadded, hstores, parse_deepOakEtag, ?_⟩
  rw [hfind, Cache.decoded, parse_deepOakEtag]

end Change

end FreshTag
