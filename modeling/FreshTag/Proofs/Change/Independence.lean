/-
FreshTag/Proofs/Change/Independence.lean

Callers that name different versions do not notice each other.  A caller works
on the versions that it names: its answer and what it leaves of them depend on
them only (`Call.agree`), and it leaves all other versions alone
(`Call.agreeOn_links`).  So what several sequences of calls, in any order in
which each sequence is in order, do to the versions of one sequence is what
that sequence does to them alone (`agree_alone`).  All such orders therefore
give the same answers, and end in caches that no key tells apart
(`orders_agree`).
-/
import FreshTag.Proofs.Cache.Components
import FreshTag.Proofs.Change.Fills

namespace FreshTag.Change

open Cache (LinkStore Moves Store Takes)
open Cache.LinkStore (AgreeOn)

/-! ### What a change does to one version -/

section

variable {catalog : Catalog} {now v : String} {e : Event} {s t : LinkStore}

theorem agreeOn_invalidated (he : e.VersionsColonFree) (hs : s.Paired) (ht : t.Paired)
    (hv : ColonFree v) (h : AgreeOn v s t) : AgreeOn v (e.invalidated s) (e.invalidated t) := by
  rcases e.ends_or_forall_not with ⟨w, hw⟩ | hno
  · rw [Event.invalidated_of_ends hw, Event.invalidated_of_ends hw]
    exact h.without hs ht hv (he.ended hw)
  · rw [Event.invalidated_of_forall_not_ends hno, Event.invalidated_of_forall_not_ends hno]
    exact h

/-- A change keeps stores agreeing on every version. -/
theorem agreeOn_applied (he : e.VersionsColonFree) (hs : s.Paired) (ht : t.Paired)
    (hv : ColonFree v) (h : AgreeOn v s t) :
    AgreeOn v (e.applied catalog now s) (e.applied catalog now t) := by
  have hinvalidated := agreeOn_invalidated he hs ht hv h
  unfold Event.applied
  rcases e.produced? catalog now with - | etag
  · exact hinvalidated
  · exact hinvalidated.addPair hv etag

/-- A change leaves alone the versions that it does not name. -/
theorem agreeOn_applied_self (he : e.VersionsColonFree) (hs : s.Paired) (hv : ColonFree v)
    (hold : e.oldVersion ≠ some v) (hnew : e.newVersion ≠ some v) :
    AgreeOn v (e.applied catalog now s) s := by
  have hinvalidated : AgreeOn v (e.invalidated s) s := by
    rcases e.ends_or_forall_not with ⟨w, hw⟩ | hno
    · rw [Event.invalidated_of_ends hw]
      refine hs.agreeOn_without hv (he.ended hw) ?_
      rintro rfl
      exact hold hw.2
    · rw [Event.invalidated_of_forall_not_ends hno]
      exact .refl v s
  unfold Event.applied
  split
  · next etag hproduced =>
    have hproduces := Event.produced?_eq_some_iff.mp hproduced
    refine (LinkStore.agreeOn_addPair hv (he.produced hproduces) ?_ _).trans hinvalidated
    rintro rfl
    exact hnew hproduces.newVersion
  · exact hinvalidated

/-- What becomes of a change depends on the version that it ends. -/
theorem outcome_eq_of_agree (hs : s.Paired) (ht : t.Paired)
    (h : ∀ v, e.oldVersion = some v → AgreeOn v s t) :
    e.outcome catalog now s = e.outcome catalog now t := by
  have hremoved : e.ended?.any s.contains = e.ended?.any t.contains := by
    rcases hended : e.ended? with - | v
    · rfl
    · exact hs.contains_eq_of_agreeOn ht (h v (Event.ended?_eq_some_iff.mp hended).2)
  unfold Event.outcome
  rw [hremoved]

end

/-! ### One caller -/

namespace Call

/-- The caller, served with nobody in between. -/
def serve : Call → StateM Cache Answer
  | .remember etag => do return .remembered (← (Cache.remember etag).run)
  | .apply catalog now e => do return .applied (← Change.apply catalog now e)

/-- The versions that the caller names. -/
def named : Call → List String
  | .remember etag => [etag.version]
  | .apply _ _ e => e.oldVersion.toList ++ e.newVersion.toList

/-- The links after the caller was served. -/
def links : Call → LinkStore → LinkStore
  | .remember etag, s => if s.get? etag.identity = none then s.addPair etag else s
  | .apply catalog now e, s => e.applied catalog now s

/-- What the caller is told. -/
def told : Call → LinkStore → Answer
  | .remember etag, s => .remembered (.ok (s.get? etag.identity).isNone)
  | .apply catalog now e, s => .applied (e.outcome catalog now s)

/-- Serving a caller is one step of the links. -/
theorem takes_serve (call : Call) (s : LinkStore) :
    Takes call.serve s (call.told s) (call.links s) := by
  cases call with
  | remember etag => exact (Takes.remember s etag).bind (Moves.pure _)
  | apply catalog now e => exact (takes_apply catalog now e s).bind (Moves.pure _)

theorem perform_eq_serve (call : Call) (c : Cache) : call.perform c = (call.serve c).2 := by
  cases call with
  | remember etag => rfl
  | apply catalog now e => rfl

theorem mem_named_apply {catalog : Catalog} {now : String} {e : Event} {v : String} :
    v ∈ named (.apply catalog now e) ↔ e.oldVersion = some v ∨ e.newVersion = some v := by
  simp [named]

/-- There is no colon in any version that the caller names. -/
theorem colonFree_iff {call : Call} :
    call.ColonFree ↔ ∀ v ∈ call.named, FreshTag.ColonFree v := by
  cases call with
  | remember etag => simp [ColonFree, named]
  | apply catalog now e =>
    simp only [mem_named_apply]
    exact ⟨fun h v hv => hv.elim (h.old v) (h.new v),
      fun h => ⟨fun v hv => h v (.inl hv), fun v hv => h v (.inr hv)⟩⟩

instance (call : Call) : Decidable call.ColonFree :=
  decidable_of_iff' _ colonFree_iff

variable {call : Call} (hcall : call.ColonFree) {v : String} {s t : LinkStore}

include hcall

theorem paired_links (hs : s.Paired) : (call.links s).Paired := by
  cases call with
  | remember etag =>
    show LinkStore.Paired (if _ then _ else _)
    split
    · exact hs.addPair hcall
    · exact hs
  | apply catalog now e => exact applied_paired hcall hs

/-- A caller leaves alone the versions that it does not name. -/
theorem agreeOn_links (hs : s.Paired) (hv : FreshTag.ColonFree v) (h : v ∉ call.named) :
    AgreeOn v (call.links s) s := by
  cases call with
  | remember etag =>
    show AgreeOn v (if _ then _ else _) s
    split
    · have hne : etag.version ≠ v := fun heq => h (by simp [named, heq])
      exact LinkStore.agreeOn_addPair hv hcall hne s
    · exact .refl v s
  | apply catalog now e =>
    exact agreeOn_applied_self hcall hs hv (fun hold => h (mem_named_apply.mpr (.inl hold)))
      fun hnew => h (mem_named_apply.mpr (.inr hnew))

/-- On stores that agree on the versions that a caller names, it is told the same, and keeps them
agreeing on every version on which they agree. -/
theorem agree (hs : s.Paired) (ht : t.Paired) (h : ∀ v ∈ call.named, AgreeOn v s t) :
    call.told s = call.told t ∧
      ∀ v, FreshTag.ColonFree v → AgreeOn v s t → AgreeOn v (call.links s) (call.links t) := by
  cases call with
  | remember etag =>
    have hfound : s.get? etag.identity = none ↔ t.get? etag.identity = none := by
      have hown := h etag.version (by simp [named])
      rw [hs.get?_identity_eq_none_iff, ht.get?_identity_eq_none_iff, hown.stored? etag rfl]
    refine ⟨?_, fun v hv hagree => ?_⟩
    · have hnone : (s.get? etag.identity).isNone = (t.get? etag.identity).isNone := by
        rw [Bool.eq_iff_iff, Option.isNone_iff_eq_none, Option.isNone_iff_eq_none, hfound]
      exact congrArg (Answer.remembered ∘ Except.ok) hnone
    · show AgreeOn v (if _ then _ else _) (if _ then _ else _)
      simp only [hfound]
      split
      · exact hagree.addPair hv etag
      · exact hagree
  | apply catalog now e =>
    have houtcome : e.outcome catalog now s = e.outcome catalog now t :=
      outcome_eq_of_agree hs ht fun v hv => h v (mem_named_apply.mpr (.inl hv))
    exact ⟨congrArg Answer.applied houtcome,
      fun v hv hagree => agreeOn_applied hcall hs ht hv hagree⟩

end Call

/-! ### Several sequences of calls -/

section

variable {ι : Type}

/-- Serves the callers one after another; each of them is tagged with its sequence. -/
def serveAll : List (ι × Call) → StateM Cache (List (ι × Answer))
  | [] => return []
  | (i, call) :: rest => do
    let answer ← call.serve
    let answers ← serveAll rest
    return (i, answer) :: answers

/-- The links after all callers were served. -/
def linksAfter (steps : List (ι × Call)) (s : LinkStore) : LinkStore :=
  steps.foldl (fun s step => step.2.links s) s

/-- What all callers are told. -/
def toldAll : List (ι × Call) → LinkStore → List (ι × Answer)
  | [], _ => []
  | (i, call) :: rest, s => (i, call.told s) :: toldAll rest (call.links s)

theorem takes_serveAll (steps : List (ι × Call)) (s : LinkStore) :
    Takes (serveAll steps) s (toldAll steps s) (linksAfter steps s) := by
  induction steps generalizing s with
  | nil => exact Moves.pure _
  | cons step rest ih =>
    exact (step.2.takes_serve s).bind ((ih (step.2.links s)).bind (Moves.pure _))

theorem paired_linksAfter {steps : List (ι × Call)} (h : ∀ step ∈ steps, step.2.ColonFree)
    {s : LinkStore} (hs : s.Paired) : (linksAfter steps s).Paired := by
  induction steps generalizing s with
  | nil => exact hs
  | cons step rest ih =>
    obtain ⟨hstep, hrest⟩ := List.forall_mem_cons.mp h
    exact ih hrest (Call.paired_links hstep hs)

/-- The links that calls leave in a cache inside the process. -/
theorem performCalls_bounded {calls : List Call} (h : ∀ call ∈ calls, call.ColonFree) {c : Cache}
    {s : LinkStore} (hc : c.store = .bounded s) (hs : s.Paired) :
    ∃ t, (performCalls calls c).store = .bounded t ∧ t.Paired := by
  refine performCalls_run (P := fun store => ∃ t, store = .bounded t ∧ t.Paired)
    (fun call hcall c => ?_) ⟨s, hc, hs⟩
  rintro ⟨t, ht, hpaired⟩
  rw [← call.perform_eq_run, call.perform_eq_serve]
  exact ⟨_, (call.takes_serve t).store_eq ht, Call.paired_links (h call hcall) hpaired⟩

/-- Where only the steps of the own sequences name the versions, the steps do to these versions what
the own ones do to them alone, and the own callers are told the same. -/
theorem agree_alone (V : String → Prop) (own : ι → Prop) [DecidablePred own]
    (hV : ∀ v, V v → ColonFree v) {steps : List (ι × Call)} {s t : LinkStore}
    (hsteps : ∀ step ∈ steps, step.2.ColonFree ∧ ∀ v ∈ step.2.named, (V v ↔ own step.1))
    (hs : s.Paired) (ht : t.Paired) (hagree : ∀ v, V v → AgreeOn v s t) :
    (toldAll steps s).filter (fun x => own x.1) =
        toldAll (steps.filter fun step => own step.1) t ∧
      ∀ v, V v → AgreeOn v (linksAfter steps s)
        (linksAfter (steps.filter fun step => own step.1) t) := by
  induction steps generalizing s t with
  | nil => exact ⟨rfl, hagree⟩
  | cons step rest ih =>
    obtain ⟨⟨hcolon, hnames⟩, hrest⟩ := List.forall_mem_cons.mp hsteps
    have hs' := Call.paired_links hcolon hs
    by_cases hown : own step.1
    · -- an own step finds the same on both sides, and leaves the same
      obtain ⟨htold, hlinks⟩ :=
        Call.agree hcolon hs ht fun v hv => hagree v ((hnames v hv).mpr hown)
      obtain ⟨hanswers, hafter⟩ := ih hrest hs' (Call.paired_links hcolon ht) fun v hv =>
        hlinks v (hV v hv) (hagree v hv)
      rw [List.filter_cons_of_pos (by simpa using hown)]
      refine ⟨?_, hafter⟩
      show List.filter _ ((step.1, step.2.told s) :: toldAll rest (step.2.links s)) =
        (step.1, step.2.told t) :: toldAll _ (step.2.links t)
      rw [List.filter_cons_of_pos (by simpa using hown), hanswers, htold]
    · -- any other step leaves the versions alone
      obtain ⟨hanswers, hafter⟩ := ih hrest hs' ht fun v hv =>
        (Call.agreeOn_links hcolon hs (hV v hv) fun hname => hown ((hnames v hname).mp hv)).trans
          (hagree v hv)
      rw [List.filter_cons_of_neg (by simpa using hown)]
      refine ⟨?_, hafter⟩
      rw [← hanswers]
      exact List.filter_cons_of_neg (by simpa using hown)

variable [DecidableEq ι]

/-- The steps are the calls of all sequences, each sequence in order. -/
def Interleaves (sequences : ι → List Call) (steps : List (ι × Call)) : Prop :=
  ∀ i, (steps.filter (·.1 = i)).map Prod.snd = sequences i

namespace Interleaves

variable {sequences : ι → List Call} {steps : List (ι × Call)} (h : Interleaves sequences steps)

include h

theorem mem {step : ι × Call} (hstep : step ∈ steps) : step.2 ∈ sequences step.1 := by
  rw [← h step.1]
  exact List.mem_map_of_mem (List.mem_filter.mpr ⟨hstep, by simp⟩)

/-- The steps of one sequence. -/
theorem filter_eq (i : ι) : steps.filter (·.1 = i) = (sequences i).map (i, ·) := by
  rw [← h i, List.map_map]
  refine (List.map_id' _).symm.trans (List.map_congr_left fun step hstep => ?_)
  have htag : step.1 = i := by simpa using (List.mem_filter.mp hstep).2
  exact Prod.ext htag rfl

end Interleaves

/-- The calls of different sequences name different versions, and no version has a colon. -/
structure Apart (sequences : ι → List Call) : Prop where
  colonFree : ∀ i, ∀ call ∈ sequences i, call.ColonFree
  disjoint : ∀ i j, i ≠ j → ∀ a ∈ sequences i, ∀ b ∈ sequences j, ∀ v ∈ a.named, v ∉ b.named

section

variable {sequences : ι → List Call} (hapart : Apart sequences) {steps : List (ι × Call)}
  (h : Interleaves sequences steps) {s : LinkStore} (hs : s.Paired)

include hapart h hs

/-- Each sequence is told what it is told alone, and leaves of its versions what it leaves alone. -/
theorem Interleaves.agree_alone (i : ι) :
    (toldAll steps s).filter (fun x => x.1 = i) = toldAll ((sequences i).map (i, ·)) s ∧
      ∀ v, (∃ call ∈ sequences i, v ∈ call.named) →
        AgreeOn v (linksAfter steps s) (linksAfter ((sequences i).map (i, ·)) s) := by
  rw [← h.filter_eq i]
  refine Change.agree_alone (fun v => ∃ call ∈ sequences i, v ∈ call.named) (· = i) ?_
    (fun step hstep => ?_) hs hs fun v _ => .refl v s
  · rintro v ⟨call, hcall, hname⟩
    exact Call.colonFree_iff.mp (hapart.colonFree i call hcall) v hname
  · have hmem := h.mem hstep
    refine ⟨hapart.colonFree _ _ hmem, fun v hname => ?_⟩
    constructor
    · rintro ⟨call, hcall, hname'⟩
      exact by_contra fun hne => hapart.disjoint _ _ hne _ hmem _ hcall v hname hname'
    · rintro rfl
      exact ⟨_, hmem, hname⟩

/-- Versions that no call names stay as they are. -/
theorem Interleaves.agreeOn_linksAfter {v : String} (hv : ColonFree v)
    (hno : ∀ i, ∀ call ∈ sequences i, v ∉ call.named) : AgreeOn v (linksAfter steps s) s := by
  have hforeign : ∀ step ∈ steps, step.2.ColonFree ∧ ∀ w ∈ step.2.named, (w = v ↔ False) := by
    intro step hstep
    refine ⟨hapart.colonFree _ _ (h.mem hstep), fun w hname => iff_of_false ?_ id⟩
    rintro rfl
    exact hno _ _ (h.mem hstep) hname
  obtain ⟨-, hafter⟩ := Change.agree_alone (· = v) (fun _ : ι => False) (fun w hw => hw ▸ hv)
    hforeign hs hs fun w _ => .refl w s
  -- none of the steps is an own one
  have hnone : steps.filter (fun _ => decide False) = [] := by simp
  have hagree := hafter v rfl
  rwa [hnone] at hagree

end

/-- Two orders of the same sequences leave stores that agree on every version. -/
theorem agree_of_interleaves {sequences : ι → List Call} (hapart : Apart sequences)
    {steps steps' : List (ι × Call)} (h : Interleaves sequences steps)
    (h' : Interleaves sequences steps') {s : LinkStore} (hs : s.Paired) {v : String}
    (hv : ColonFree v) : AgreeOn v (linksAfter steps s) (linksAfter steps' s) := by
  by_cases hnamed : ∃ i, ∃ call ∈ sequences i, v ∈ call.named
  · obtain ⟨i, hi⟩ := hnamed
    exact ((h.agree_alone hapart hs i).2 v hi).trans ((h'.agree_alone hapart hs i).2 v hi).symm
  · have hno : ∀ i, ∀ call ∈ sequences i, v ∉ call.named := fun i call hcall hname =>
      hnamed ⟨i, call, hcall, hname⟩
    exact (h.agreeOn_linksAfter hapart hs hv hno).trans
      (h'.agreeOn_linksAfter hapart hs hv hno).symm

/-- Where the calls of different sequences name different versions, it does not matter in which
order the sequences come between each other, each of them in order: in a cache inside the process,
to which any calls may have come before, no key tells apart what two orders leave, and every caller
is told the same. -/
theorem orders_agree {sequences : ι → List Call} (hapart : Apart sequences) {before : List Call}
    (hbefore : ∀ call ∈ before, call.ColonFree) (reports : Telemetry) {start : Cache}
    (hstart : start = performCalls before { store := .bounded .empty, telemetry := reports })
    {steps steps' : List (ι × Call)} (h : Interleaves sequences steps)
    (h' : Interleaves sequences steps') :
    ∃ answers after answers' after', serveAll steps start = (answers, after) ∧
      serveAll steps' start = (answers', after') ∧
      (∀ key, ((Cache.holds key).run after).1 = ((Cache.holds key).run after').1) ∧
      (∀ key, ((Cache.find key).run after).1 = ((Cache.find key).run after').1) ∧
      (Cache.size after).1 = (Cache.size after').1 ∧
      ∀ i, answers.filter (·.1 = i) = answers'.filter (·.1 = i) := by
  obtain ⟨s, hstore, hs⟩ : ∃ s, start.store = .bounded s ∧ s.Paired :=
    hstart ▸ performCalls_bounded hbefore rfl LinkStore.paired_empty
  have hcolon : ∀ {order : List (ι × Call)}, Interleaves sequences order →
      ∀ step ∈ order, step.2.ColonFree := fun horder step hstep =>
    hapart.colonFree _ _ (horder.mem hstep)
  have hp := paired_linksAfter (hcolon h) hs
  have hp' := paired_linksAfter (hcolon h') hs
  have hagree : ∀ v, ColonFree v → AgreeOn v (linksAfter steps s) (linksAfter steps' s) :=
    fun v hv => agree_of_interleaves hapart h h' hs hv
  have hafter := (takes_serveAll steps s).store_eq hstore
  have hafter' := (takes_serveAll steps' s).store_eq hstore
  refine ⟨_, _, _, _, rfl, rfl, fun key => ?_, fun key => ?_, ?_, fun i => ?_⟩
  · rw [(Takes.holds _ key).answer_eq hafter, (Takes.holds _ key).answer_eq hafter',
      hp.contains_eq_of_agree hp' hagree]
  · rw [(Takes.find _ key).answer_eq hafter, (Takes.find _ key).answer_eq hafter',
      hp.get?_eq_of_agree hp' hagree]
  · rw [(Takes.size _).answer_eq hafter, (Takes.size _).answer_eq hafter',
      hp.size_eq_of_agree hp' hagree]
  · have htold := (takes_serveAll steps s).answer_eq hstore
    have htold' := (takes_serveAll steps' s).answer_eq hstore
    rw [htold, htold', (h.agree_alone hapart hs i).1, (h'.agree_alone hapart hs i).1]

end

/-! ### An oak and an elm -/

/-- An oak is served at version 10 and grows; an elm is served at version 20 and felled. -/
def treeCalls (elm : Bool) : List Call :=
  if elm then
    [.remember (plantEtag "elm" "20"),
      .apply plants "" (plantChange .delete (some "20") none "elm")]
  else
    [.remember (plantEtag "oak" "10"),
      .apply plants "" (plantChange .update (some "10") (some "11") "oak")]

/-- The calls for the oak, and then those for the elm. -/
def oakFirst : List (Bool × Call) :=
  (treeCalls false).map (false, ·) ++ (treeCalls true).map (true, ·)

/-- The calls for the elm, and then those for the oak. -/
def elmFirst : List (Bool × Call) :=
  (treeCalls true).map (true, ·) ++ (treeCalls false).map (false, ·)

/-- A cache that holds a fir at the version that the oak has at first. -/
def firCache : Cache :=
  performCalls [.remember (plantEtag "fir" "10")] { store := .bounded .empty }

/-- Whichever tree comes first, the same number of etags is left, and whoever asks for the elm is
told the same. -/
theorem trees_agree :
    Apart treeCalls ∧ Interleaves treeCalls oakFirst ∧ Interleaves treeCalls elmFirst ∧
      (Cache.size (serveAll oakFirst firCache).2).1 =
        (Cache.size (serveAll elmFirst firCache).2).1 ∧
      (serveAll oakFirst firCache).1.filter (·.1 = true) =
        (serveAll elmFirst firCache).1.filter (·.1 = true) := by
  have hapart : Apart treeCalls := ⟨by decide, by decide⟩
  have hbefore : ∀ call ∈ [Call.remember (plantEtag "fir" "10")], call.ColonFree := by decide
  have hoak : Interleaves treeCalls oakFirst := by
    intro elm
    cases elm
    all_goals rfl
  have helm : Interleaves treeCalls elmFirst := by
    intro elm
    cases elm
    all_goals rfl
  obtain ⟨answers, after, answers', after', hrun, hrun', -, -, hsize, htold⟩ :=
    orders_agree hapart hbefore {} rfl hoak helm
  refine ⟨hapart, hoak, helm, ?_, ?_⟩
  · rw [firCache, hrun, hrun', hsize]
  · rw [firCache, hrun, hrun', htold true]

end FreshTag.Change
