/-
FreshTag/Proofs/Conditional/Matching.lean

Looking for one of several strong etags in a cache.  The search answers what
the first candidate answers that ends it, because it is malformed or found, and
`false` if there is none (`containsOne_answer`); whatever it answers, the cache
holds afterwards what it held before (`keepsContents_containsOne`).  A header
made of etags that are read back as they were therefore matches exactly if the
cache holds the version of one of them (`headers_match`).
-/
import FreshTag.Proofs.Cache.Answers
import FreshTag.Proofs.Conditional.Header
import Mathlib

namespace FreshTag

open Redis (Keeps)

namespace Cache

variable {α β : Type}

namespace Store

/-- What the store holds; how many commands a server received does not count. -/
def contents : Store → Store
  | .shared p server => .shared p { server with received := 0 }
  | store => store

/-- The answer of a search that ends at the candidate, if it does. -/
def verdict (store : Store) (candidate : String) : Option (Except Error Bool) :=
  match StrongEtag.decode candidate with
  | .error cause => some (.error (.malformed cause))
  | .ok etag => if store.has etag.version then some (.ok true) else none

@[simp] theorem has_contents (store : Store) (key : String) :
    store.contents.has key = store.has key := by
  cases store
  all_goals rfl

@[simp] theorem working_contents (store : Store) : store.contents.Working ↔ store.Working := by
  cases store
  all_goals rfl

@[simp] theorem verdict_contents (store : Store) : store.contents.verdict = store.verdict := by
  funext candidate
  unfold verdict
  simp only [has_contents]

/-- What is read as an etag ends the search exactly if its version is there. -/
theorem verdict_of_decode {candidate : String} {etag : StrongEtag}
    (h : StrongEtag.decode candidate = .ok etag) (store : Store) :
    store.verdict candidate = if store.has etag.version then some (.ok true) else none := by
  unfold verdict
  rw [h]

/-- A search ends with the reason why a candidate is malformed, or with success. -/
theorem of_verdict_eq_some {store : Store} {candidate : String} {answer : Except Error Bool}
    (h : store.verdict candidate = some answer) :
    answer = .ok true ∨ ∃ cause, answer = .error cause := by
  unfold verdict at h
  split at h
  · exact .inr ⟨_, (Option.some.inj h).symm⟩
  · split at h
    · exact .inl (Option.some.inj h).symm
    · cases h

end Store

/-! ### Asking changes nothing -/

/-- The operation leaves what any cache holds as it is. -/
def KeepsContents (op : Op α) : Prop :=
  ∀ c : Cache, (op.run c).2.store.contents = c.store.contents

namespace KeepsContents

theorem pure (x : α) : KeepsContents (Pure.pure x) :=
  fun _ => rfl

theorem bind {op : Op α} {f : α → Op β} (h : KeepsContents op) (hf : ∀ x, KeepsContents (f x)) :
    KeepsContents (op >>= f) := by
  intro c
  show (ExceptT.bindCont f (op.run c).1 (op.run c).2).2.store.contents = _
  have hop := h c
  generalize op.run c = after at hop
  rcases after with ⟨cause | x, after⟩
  · exact hop
  · exact (hf x after).trans hop

theorem holds (key : String) : KeepsContents (Cache.holds key) := by
  intro c
  rcases hstore : c.store with - | s | ⟨p, server⟩
  · obtain ⟨store, reports⟩ := c
    obtain rfl : store = .disabled := hstore
    rfl
  · rw [(Takes.holds s key).store_eq hstore]
  · have hreads : Keeps (· = server.space) (SharedStore.contains p key) := keeps_contains p key
    obtain ⟨hspace, hrefuses⟩ := hreads server rfl
    rw [holds_on_shared hstore key, Store.contents, hspace, hrefuses]
    rfl

theorem contains (candidate : String) : KeepsContents (Cache.contains candidate) := by
  unfold Cache.contains
  rcases StrongEtag.decode candidate with cause | etag
  · exact fun _ => rfl
  · exact (holds etag.version).bind fun _ _ => rfl

end KeepsContents

theorem keepsContents_containsOne (candidates : List String) :
    KeepsContents (containsOne candidates) := by
  induction candidates with
  | nil => exact .pure false
  | cons candidate rest ih =>
    refine (KeepsContents.contains candidate).bind fun found => ?_
    cases found
    · exact ih
    · exact fun _ => rfl

/-! ### What the answer is -/

/-- One candidate answers its verdict, or that it is not in the cache. -/
theorem contains_answer {c : Cache} (hworking : c.store.Working) (candidate : String) :
    ((Cache.contains candidate).run c).1 = (c.store.verdict candidate).getD (.ok false) := by
  rcases hdecode : StrongEtag.decode candidate with cause | etag
  · unfold Store.verdict
    rw [contains_malformed hdecode, hdecode]
    rfl
  · rw [contains_eq_holds hdecode, holds_answer hworking, Store.verdict_of_decode hdecode]
    cases c.store.has etag.version
    all_goals rfl

/-- The search answers the first verdict there is. -/
theorem containsOne_answer (candidates : List String) {c : Cache} (hworking : c.store.Working) :
    ((containsOne candidates).run c).1 =
      (candidates.findSome? c.store.verdict).getD (.ok false) := by
  induction candidates generalizing c with
  | nil => rfl
  | cons candidate rest ih =>
    have hanswer := contains_answer hworking candidate
    have hkept := KeepsContents.contains candidate c
    rcases hrun : (Cache.contains candidate).run c with ⟨answer, after⟩
    rw [hrun] at hanswer hkept
    unfold containsOne
    rw [ExceptT.run_bind, bind_of_eq hrun, List.findSome?_cons]
    rcases hverdict : c.store.verdict candidate with - | verdict
    · -- nothing ends the search here, so it goes on in a cache that holds the same
      rw [hverdict] at hanswer
      obtain rfl : answer = .ok false := hanswer
      have hworking' : after.store.Working := by
        rwa [← Store.working_contents, hkept, Store.working_contents]
      rw [← Store.verdict_contents c.store, ← hkept, Store.verdict_contents]
      exact ih hworking'
    · rw [hverdict] at hanswer
      obtain rfl : answer = verdict := hanswer
      rcases Store.of_verdict_eq_some hverdict with rfl | ⟨cause, rfl⟩
      all_goals rfl

/-! ### Headers made of etags -/

/-- Of the header values of proper etags, one is found exactly if its version is there. -/
theorem findSome?_headerValues {etags : List StrongEtag} (h : ∀ etag ∈ etags, etag.Proper)
    (store : Store) :
    ((etags.map StrongEtag.headerValue).findSome? store.verdict).getD (.ok false) =
      .ok (etags.any fun etag => store.has etag.version) := by
  induction etags with
  | nil => rfl
  | cons etag rest ih =>
    obtain ⟨hetag, hrest⟩ := List.forall_mem_cons.mp h
    rw [List.map_cons, List.findSome?_cons, Store.verdict_of_decode (hetag.decode (Or.inr rfl)),
      List.any_cons]
    cases store.has etag.version
    · exact ih hrest
    · rfl

open IfNoneMatch (Element etagsOf headerOf parse) in
/-- A header that is made of etags is read as their header values, in their order.  If they are
proper and no command is refused, it matches exactly if the cache holds the version of one of them.
Of whatever candidates, the first one that is malformed or found gives the answer, and what the
cache holds never changes. -/
theorem headers_match (elements : List Element) (c : Cache) :
    parse (headerOf elements) = .tags ((etagsOf elements).map StrongEtag.headerValue) ∧
      ((∀ etag ∈ etagsOf elements, etag.Proper) → c.store.Working →
        ((containsOne (parse (headerOf elements)).candidates).run c).1 =
          .ok ((etagsOf elements).any fun etag => c.store.has etag.version)) ∧
      ∀ candidates,
        (c.store.Working → ((containsOne candidates).run c).1 =
          (candidates.findSome? c.store.verdict).getD (.ok false)) ∧
        ((containsOne candidates).run c).2.store.contents = c.store.contents := by
  have hparse := IfNoneMatch.parse_headerOf elements
  refine ⟨hparse, fun hproper hworking => ?_, fun candidates =>
    ⟨containsOne_answer candidates, keepsContents_containsOne candidates c⟩⟩
  rw [containsOne_answer _ hworking, hparse]
  exact findSome?_headerValues hproper c.store

/-! ### A header with an oak and an elm -/

/-- The strong etag of a plant at a version. -/
def plantTag (version : String) : StrongEtag :=
  { collection := "public.plants", srid := "25832", format := "JSON", version }

/-- A single space. -/
def oneSpace : IfNoneMatch.Space :=
  ⟨[' '], List.forall_mem_singleton.mpr rfl⟩

/-- The plants at the versions 10 and 11, the first one marked as weak, with a comma too many. -/
def plantTags : List IfNoneMatch.Element :=
  [.tag oneSpace true (plantTag "10") oneSpace, .blank oneSpace,
    .tag oneSpace false (plantTag "11") oneSpace]

/-- A cache that holds only version 11. -/
def elmCache : Cache :=
  { store := .bounded (LinkStore.empty.add "11" (WeakEtag.ofVersion "11")) }

/-- The header of the plants matches a cache that holds the second one only. -/
theorem plantTags_match :
    (∀ etag ∈ IfNoneMatch.etagsOf plantTags, etag.Proper) ∧ elmCache.store.Working ∧
      ((containsOne (IfNoneMatch.parse (IfNoneMatch.headerOf plantTags)).candidates).run
        elmCache).1 = .ok true := by
  have hproper : ∀ etag ∈ IfNoneMatch.etagsOf plantTags, etag.Proper := by decide
  refine ⟨hproper, trivial, ?_⟩
  rw [(headers_match plantTags elmCache).2.1 hproper trivial]
  cbv

end Cache

end FreshTag
