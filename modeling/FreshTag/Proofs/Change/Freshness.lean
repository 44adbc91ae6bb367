/-
FreshTag/Proofs/Change/Freshness.lean

What a match of a strong etag means.  A strong etag names a collection, a
representation and a version, but it is looked up by the version alone.  As
long as a row has the version, an etag of it may be in the cache; when the row
leaves the version, every etag of the version goes (`Step.leaves_version`).  So
a match says that the row still has the version, or that an etag of the version
was stored after the row had left it, and that another row, written by the same
transaction, has the version now (`match_is_current_or_shared`).

The second case happens: `oak_matches_by_elm` is a run in which the etag of a
row that was updated since matches, because its sibling was remembered.
-/
import FreshTag.Proofs.Change.History
import FreshTag.Proofs.Etag.Segments

namespace FreshTag.Change

open Cache (LinkStore Takes)

/-- The row is there, in that version. -/
def At {ρ : Type} (rows : Rows ρ) (r : ρ) (version : String) : Prop :=
  ∃ row, rows r = some row ∧ row.version = version

section

variable {ρ : Type}

/-- An etag of the version is in the cache. -/
def World.HoldsVersion (w : World ρ) (version : String) : Prop :=
  ∃ s, w.processor.cache.store = .bounded s ∧ s.HoldsVersion version

theorem World.holdsVersion_iff {w : World ρ} {s : LinkStore}
    (hs : w.processor.cache.store = .bounded s) {version : String} :
    w.HoldsVersion version ↔ s.HoldsVersion version := by
  constructor
  · rintro ⟨s', hs', hholds⟩
    obtain rfl : s = s' := Cache.Store.bounded.inj (hs.symm.trans hs')
    exact hholds
  · exact fun hholds => ⟨s, hs, hholds⟩

variable [DecidableEq ρ] {catalog : Catalog} {served : RowVersion → WeakEtag → Prop}

/-- Between two moments an etag of the version was stored where none was, at a moment when the row
had left the version. -/
def StoredSince (catalog : Catalog) (served : RowVersion → WeakEtag → Prop) (w₁ w₂ : World ρ)
    (r : ρ) (version : String) : Prop :=
  ∃ a b, Run catalog served w₁ a ∧ Step catalog served a b ∧ Run catalog served b w₂ ∧
    ¬ At b.rows r version ∧ ¬ a.HoldsVersion version ∧ b.HoldsVersion version

/-- An etag in the cache has the version of some row. -/
theorem InStep.exists_at {w : World ρ} (h : InStep catalog served w) {version : String}
    (hholds : w.HoldsVersion version) : ∃ r, At w.rows r version := by
  obtain ⟨-, s, hs, hcurrent⟩ := h
  obtain ⟨i, etag, hst, rfl⟩ := (World.holdsVersion_iff hs).mp hholds
  obtain ⟨r, row, hrow, hversion, -⟩ := hcurrent.row_of_stored hst
  exact ⟨r, row, hrow, hversion.symm⟩

/-- A strong etag matches exactly if an etag of the version that it names is in the cache. -/
theorem InStep.match_iff {w : World ρ} (h : InStep catalog served w) {strong : String}
    {d : StrongEtag} (hdecode : StrongEtag.decode strong = .ok d) (hcolon : ColonFree d.version) :
    ((Cache.contains strong).run w.processor.cache).1 = .ok true ↔ w.HoldsVersion d.version := by
  obtain ⟨-, s, hs, hcurrent⟩ := h
  rw [(Takes.contains_ok s hdecode).answer_eq hs, Except.ok.injEq, hcurrent.contains_iff hcolon,
    World.holdsVersion_iff hs]

theorem InStep.holdsVersion_of_match {w : World ρ} (h : InStep catalog served w)
    {version strong : String} (hcolon : ColonFree version)
    (hdecode : ∀ d, StrongEtag.decode strong = .ok d → d.version = version)
    (hmatch : ((Cache.contains strong).run w.processor.cache).1 = .ok true) :
    w.HoldsVersion version := by
  rcases hd : StrongEtag.decode strong with cause | d
  · obtain ⟨-, s, hs, -⟩ := h
    rw [(Takes.contains_error s hd).answer_eq hs] at hmatch
    cases hmatch
  · obtain rfl := hdecode d hd
    exact (h.match_iff hd hcolon).mp hmatch

/-- Where an etag was remembered, its version is in the cache. -/
theorem InStep.remembers {w : World ρ} (h : InStep catalog served w) {etag : WeakEtag}
    (hcolon : ColonFree etag.version) :
    World.HoldsVersion { w with
      processor := { w.processor with
        cache := ((Cache.remember etag).run w.processor.cache).2 } } etag.version := by
  obtain ⟨-, s, hs, hcurrent⟩ := h
  exact ⟨_, (Takes.remember s etag).store_eq hs, hcurrent.holdsVersion_remembered hcolon⟩

/-- When a row leaves its version, no etag of the version stays. -/
theorem Step.leaves_version {w w' : World ρ} (hstep : Step catalog served w w')
    (h : InStep catalog served w) {r : ρ} {version : String} (hat : At w.rows r version)
    (hleft : ¬ At w'.rows r version) : ¬ w'.HoldsVersion version := by
  cases hstep with
  | announce => exact absurd hat hleft
  | page => exact absurd hat hleft
  | remember => exact absurd hat hleft
  | last now hunderway hparse =>
    obtain ⟨hawaits, s, hs, hcurrent⟩ := h
    obtain ⟨c, md5, hc, rfl, -, hstore⟩ := hawaits.last hunderway hparse hs catalog now
    have hleft : ¬ At (c.after w.rows) r version := hleft
    obtain ⟨row, hrow, rfl⟩ := hat
    -- the row is the one that changed, and its version ends
    have htarget : r = c.target := by
      by_contra hne
      exact hleft ⟨row, by rw [after_of_ne hne, hrow], rfl⟩
    subst htarget
    have hends : (c.event md5).Ends row.version := ends_of_target hc hrow
    rw [World.holdsVersion_iff hstore]
    rintro ⟨i, etag, hst, hversion⟩
    rcases (stored?_applied (event_colonFree c md5) hcurrent.toPaired).mp hst with
      ⟨hproduces, -⟩ | ⟨-, hkept, -⟩
    · obtain ⟨new, hnew, hdescribes⟩ := describes_of_produces hproduces
      exact hleft ⟨new, hnew, hdescribes.version.symm.trans hversion⟩
    · exact hkept (hversion ▸ hends)

/-- While an etag of the version is in the cache, the row has the version, or the etag was stored
since it left. -/
theorem Run.at_or_storedSince {w₁ w₂ : World ρ} (h : InStep catalog served w₁)
    (hrun : Run catalog served w₁ w₂) {r : ρ} {version : String} (hat : At w₁.rows r version)
    (hholds : w₂.HoldsVersion version) :
    At w₂.rows r version ∨ StoredSince catalog served w₁ w₂ r version := by
  -- on the run: either its last step stores the version anew, or the version was there before
  induction hrun with
  | refl => exact Or.inl hat
  | @tail w w' hrun hstep ih =>
    by_cases hat' : At w'.rows r version
    · exact Or.inl hat'
    by_cases hbefore : w.HoldsVersion version
    · rcases ih hbefore with hatw | ⟨a, b, hra, hab, hrb, hleft, hnot, hb⟩
      · exact absurd hholds (hstep.leaves_version (Run.inStep hrun h) hatw hat')
      · exact Or.inr ⟨a, b, hra, hab, hrb.tail hstep, hleft, hnot, hb⟩
    · exact Or.inr ⟨w, w', hrun, hstep, .refl, hat', hbefore, hholds⟩

end

/-- A match of the strong etag that was issued for a row says that the row still has the version,
or that an etag of the version was stored since the row left it, and another row has the version
now. -/
theorem match_is_current_or_shared {ρ : Type} [DecidableEq ρ] (catalog : Catalog)
    (served : RowVersion → WeakEtag → Prop) (rows : Rows ρ) (reports : Telemetry)
    {issued now : World ρ} (hissued : Run catalog served (World.fresh rows reports) issued)
    (hrun : Run catalog served issued now) {r : ρ} {row : RowVersion} {etag : WeakEtag}
    (hrow : issued.rows r = some row) (hetag : etag.version = row.version)
    (hquote : '"' ∉ row.version.toList)
    (hend : Text.trimEnd row.version.toList = row.version.toList) {srid format strong : String}
    (hstrong : strong = (etag.strong srid format).token ∨
      strong = (etag.strong srid format).headerValue)
    (hmatch : ((Cache.contains strong).run now.processor.cache).1 = .ok true) :
    At now.rows r row.version ∨
      (StoredSince catalog served issued now r row.version ∧
        ∃ r', r' ≠ r ∧ At now.rows r' row.version) := by
  have hin : InStep catalog served issued := Run.inStep hissued (inStep_fresh rows reports)
  have hinNow : InStep catalog served now := Run.inStep hrun hin
  have hholds : now.HoldsVersion row.version := by
    have hversion : (etag.strong srid format).version = row.version := hetag
    refine hinNow.holdsVersion_of_match row.colonFree ?_ hmatch
    intro d hdecode
    rw [← hversion]
    exact StrongEtag.version_of_decode hstrong (by rw [hversion]; exact hquote)
      (by rw [hversion]; exact hend) hdecode
  by_cases hat : At now.rows r row.version
  · exact Or.inl hat
  · refine Or.inr ⟨?_, ?_⟩
    · exact (Run.at_or_storedSince hin hrun ⟨row, hrow, rfl⟩ hholds).resolve_left hat
    · obtain ⟨r', hr'⟩ := hinNow.exists_at hholds
      exact ⟨r', fun heq => hat (heq ▸ hr'), hr'⟩

/-! ### An oak and an elm of one transaction -/

theorem colonFree_eleven : ColonFree "11" := by decide

theorem short_elm : (plantChange .insert none none "elm").row.length < Number.twoTo 30 := by
  decide

def oakEleven : RowVersion :=
  plantVersion "oak" "11" colonFree_eleven short_oak

def elmTen : RowVersion :=
  plantVersion "elm" "10" colonFree_ten short_elm

/-- Both plants are at version 10. -/
def grove : World Bool :=
  World.fresh (fun isOak => some (if isOak then oakTen else elmTen)) {}

/-- The oak gets to version 11. -/
def oakGrows : RowChange Bool :=
  .update true oakTen oakEleven

theorem parse_oakGrows :
    Notification.parse (plantPayload (oakGrows.event "oak")) =
      .ok ((oakGrows.event "oak").notification ⟨1, 1, (oakGrows.event "oak").row⟩) := by
  cbv

def grown : World Bool where
  rows := oakGrows.after grove.rows
  processor := (grove.processor.handle plants "" (plantPayload (oakGrows.event "oak"))).2

/-- After the oak has grown, the elm is served. -/
def elmServed : World Bool :=
  { grown with
    processor := { grown.processor with
      cache := ((Cache.remember (plantEtag "elm" "10")).run grown.processor.cache).2 } }

theorem run_grown : Run plants (fun _ _ => True) grove grown := by
  have hnone : grove.underway = none := rfl
  have htable : oakEleven.table = oakTen.table := by
    simp only [oakEleven, oakTen, plantVersion]
  exact run_change hnone (c := oakGrows) ⟨rfl, htable⟩ (by decide) parse_oakGrows ""

theorem run_elmServed : Run plants (fun _ _ => True) grove elmServed := by
  have helm : grown.rows false = some elmTen := by
    show Function.update grove.rows true (some oakEleven) false = _
    rw [Function.update_of_ne (by decide)]
    rfl
  have hversion : (plantEtag "elm" "10").version = elmTen.version := rfl
  exact run_grown.tail (.remember helm hversion trivial)

/-- The token that was issued for the oak at version 10. -/
def oakToken : String :=
  ((plantEtag "oak" "10").strong "25832" "JSON").token

theorem elmServed_matches :
    ((Cache.contains oakToken).run elmServed.processor.cache).1 = .ok true := by
  have hdecode : StrongEtag.decode oakToken =
      .ok ((plantEtag "oak" "10").strong "25832" "JSON") := by cbv
  have hgrove : InStep plants (fun _ _ => True) grove := inStep_fresh _ _
  have hten : ColonFree (plantEtag "elm" "10").version := by decide
  have hholds := (Run.inStep run_grown hgrove).remembers hten
  exact ((Run.inStep run_elmServed hgrove).match_iff hdecode hten).mpr hholds

/-- The etag of the oak at version 10 matches although the oak is at version 11, because the elm
is remembered at version 10. -/
theorem oak_matches_by_elm :
    Run plants (fun _ _ => True) grove elmServed ∧ grove.rows true = some oakTen ∧
      ((Cache.contains oakToken).run elmServed.processor.cache).1 = .ok true ∧
      ¬ At elmServed.rows true oakTen.version := by
  refine ⟨run_elmServed, rfl, elmServed_matches, ?_⟩
  rintro ⟨row, hrow, hversion⟩
  have hoak : elmServed.rows true = some oakEleven := by
    show Function.update grove.rows true (some oakEleven) true = _
    rw [Function.update_self]
  rw [hoak] at hrow
  cases hrow
  exact absurd hversion (by decide)

/-- Of the grove it tells that the elm has version 10 still. -/
theorem oakToken_is_shared :
    Run plants (fun _ _ => True) grove elmServed ∧
      ((Cache.contains oakToken).run elmServed.processor.cache).1 = .ok true ∧
      (At elmServed.rows true "10" ∨
        (StoredSince plants (fun _ _ => True) grove elmServed true "10" ∧
          ∃ r', r' ≠ true ∧ At elmServed.rows r' "10")) :=
  ⟨run_elmServed, elmServed_matches,
    match_is_current_or_shared plants (fun _ _ => True) _ {} .refl run_elmServed
      (show grove.rows true = some oakTen from rfl)
      (show (plantEtag "oak" "10").version = oakTen.version from rfl) (by decide) (by decide)
      (show oakToken = ((plantEtag "oak" "10").strong "25832" "JSON").token ∨ _ from Or.inl rfl)
      elmServed_matches⟩

end FreshTag.Change
