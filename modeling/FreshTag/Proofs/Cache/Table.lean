/-
FreshTag/Proofs/Cache/Table.lean

The cache inside the process is a table of links.  The table has one list of
links from keys to identities, in the order they were made, and the etag of
each identity; it knows no other order and no list for a single key.  A link
that is made again keeps its place, and removing a key takes out every identity
that it is linked to, with all links to it.

`Tabulated` ties a link store to such a table: behind each key stand the
identities that the table links it to, in the same order, and the same etags are
stored.  Every operation gets the same answer from both and keeps them tied
(`Tabulated.step`), hence so does every sequence of operations
(`answers_as_table`).  What the table holds of an identity is the etag that was
last written for it (`etag_lastWritten`).
-/
import FreshTag.Proofs.Cache.Agreement
import Mathlib.Data.List.Induction

namespace FreshTag.Cache

/-! ### The table -/

/-- Links from keys to identities, the oldest first, and the etag of each identity. -/
structure LinkTable where
  links : List (String × String) := []
  etags : Dict WeakEtag := {}

namespace LinkTable

/-- The table without links. -/
def empty : LinkTable := {}

/-- The identities that a key is linked to, the oldest link first. -/
def linked (t : LinkTable) (key : String) : List String :=
  (t.links.filter (·.1 = key)).map Prod.snd

/-- The key has a link. -/
def hasLink (t : LinkTable) (key : String) : Bool :=
  t.links.any (·.1 = key)

/-- Sets the etag of its identity, and links the key to it at the end of the list, unless it is
linked already. -/
def add (t : LinkTable) (key : String) (etag : WeakEtag) : LinkTable where
  links :=
    if (key, etag.identity) ∈ t.links then t.links else t.links ++ [(key, etag.identity)]
  etags := t.etags.set etag.identity etag

/-- Takes out every identity that the key is linked to, with all links to it. -/
def remove (t : LinkTable) (key : String) : LinkTable where
  links := t.links.filter (·.2 ∉ t.linked key)
  etags := (t.linked key).foldl Dict.erase t.etags

/-- The etag of the identity that the key was linked to last. -/
def find (t : LinkTable) (key : String) : Option WeakEtag :=
  (t.linked key).getLast?.bind t.etags.get?

end LinkTable

/-! ### Answers -/

/-- What an operation answers. -/
inductive Reply where
  | told (yes : Bool)
  | counted (n : Nat)
  | found (etag : Option WeakEtag)

/-- What the cache answers to the operation. -/
def Request.reply (c : Cache) : Request → Except Error Reply
  | .add key etag => ((Cache.add key etag).run c).1.map .told
  | .remove key => ((Cache.remove key).run c).1.map .told
  | .holds key => ((Cache.holds key).run c).1.map .told
  | .size => .ok (.counted (Cache.size c).1)
  | .find key => ((Cache.find key).run c).1.map .found

/-- What the cache answers to one operation after the other. -/
def replies (c : Cache) : List Request → List (Except Error Reply)
  | [] => []
  | r :: requests => r.reply c :: replies (r.perform c) requests

namespace LinkTable

/-- What the table answers to the operation. -/
def reply (t : LinkTable) : Request → Reply
  | .add .. => .told true
  | .remove key => .told (t.hasLink key)
  | .holds key => .told (t.hasLink key)
  | .size => .counted t.etags.size
  | .find key => .found (t.find key)

/-- The table after the operation. -/
def perform (t : LinkTable) : Request → LinkTable
  | .add key etag => t.add key etag
  | .remove key => t.remove key
  | .holds _ | .size | .find _ => t

/-- What the table answers to one operation after the other. -/
def replies (t : LinkTable) : List Request → List Reply
  | [] => []
  | r :: requests => t.reply r :: (t.perform r).replies requests

/-- The table after some operations. -/
def performAll (requests : List Request) (t : LinkTable) : LinkTable :=
  requests.foldl perform t

/-! ### What the operations do to the table -/

variable (t : LinkTable)

theorem mem_linked {key identity : String} :
    identity ∈ t.linked key ↔ (key, identity) ∈ t.links := by
  unfold linked
  rw [List.mem_map]
  constructor
  · rintro ⟨⟨k, i⟩, hfilter, rfl⟩
    obtain ⟨hmem, hk⟩ := List.mem_filter.mp hfilter
    obtain rfl : k = key := of_decide_eq_true hk
    exact hmem
  · intro hmem
    exact ⟨_, List.mem_filter.mpr ⟨hmem, decide_eq_true rfl⟩, rfl⟩

theorem hasLink_iff {key : String} : t.hasLink key = true ↔ t.linked key ≠ [] := by
  unfold hasLink
  rw [List.any_eq_true]
  constructor
  · rintro ⟨⟨k, i⟩, hmem, hk⟩
    obtain rfl : k = key := of_decide_eq_true hk
    exact List.ne_nil_of_mem (t.mem_linked.mpr hmem)
  · intro hne
    obtain ⟨i, hi⟩ := List.exists_mem_of_ne_nil _ hne
    exact ⟨_, t.mem_linked.mp hi, decide_eq_true rfl⟩

/-- A link is appended to the links of its key. -/
theorem linked_add (key : String) (etag : WeakEtag) (k : String) :
    (t.add key etag).linked k =
      if k = key then appendNew etag.identity (t.linked key) else t.linked k := by
  by_cases hmem : (key, etag.identity) ∈ t.links
  · have hsame : (t.add key etag).links = t.links := if_pos hmem
    rw [appendNew, if_pos (t.mem_linked.mpr hmem)]
    unfold linked
    rw [hsame]
    split
    · next h => rw [h]
    · rfl
  · have hlinks : (t.add key etag).links = t.links ++ [(key, etag.identity)] := if_neg hmem
    rw [appendNew, if_neg fun h => hmem (t.mem_linked.mp h)]
    unfold linked
    rw [hlinks, List.filter_append, List.map_append]
    by_cases hk : k = key
    · subst hk
      simp
    · simp [hk, Ne.symm hk]

theorem linked_remove (key k : String) :
    (t.remove key).linked k = (t.linked k).filter (· ∉ t.linked key) := by
  show ((t.links.filter _).filter _).map Prod.snd = (List.map Prod.snd _).filter _
  rw [List.filter_map, List.filter_comm]
  rfl

theorem get?_etags_remove (key i : String) :
    (t.remove key).etags.get? i = if i ∈ t.linked key then none else t.etags.get? i :=
  Dict.get?_foldl_erase _ _ _

end LinkTable

/-! ### Store and table -/

/-- The table has the links of the store, in the order of the store, and its etags. -/
structure Tabulated (s : LinkStore) (t : LinkTable) : Prop where
  consistent : s.Consistent
  identities : ∀ key, s.identities key = t.linked key
  stored? : ∀ identity, s.stored? identity = t.etags.get? identity

theorem tabulated_empty : Tabulated .empty .empty where
  consistent := LinkStore.consistent_empty
  identities _ := rfl
  stored? _ := rfl

namespace Tabulated

variable {s : LinkStore} {t : LinkTable} (h : Tabulated s t)

include h

/-! #### Answers of the two -/

theorem contains_eq (key : String) : s.contains key = t.hasLink key := by
  rw [Bool.eq_iff_iff, h.consistent.contains_iff, t.hasLink_iff, h.identities]

theorem size_eq : s.size = t.etags.size := by
  refine Dict.size_congr fun i => ?_
  have hsome := congrArg Option.isSome (h.stored? i)
  rwa [LinkStore.stored?, Option.isSome_map] at hsome

/-- Where a key has a link, the identity it was linked to last is stored. -/
theorem exists_stored {key identity : String} (hlast : (t.linked key).getLast? = some identity) :
    ∃ etag, t.etags.get? identity = some etag := by
  have hmem : identity ∈ s.identities key := by
    rw [h.identities]
    exact List.mem_of_getLast? hlast
  obtain ⟨stored, hstored, -⟩ := h.consistent.stored_of_mem hmem
  exact ⟨stored.etag, h.stored? identity ▸ LinkStore.stored?_eq_some_iff.mpr ⟨_, hstored, rfl⟩⟩

theorem get?_eq (key : String) : s.get? key = t.find key := by
  refine Option.ext fun etag => ?_
  rw [h.consistent.get?_eq_some_iff, LinkTable.find, Option.bind_eq_some_iff]
  simp only [exists_and_left, ← LinkStore.stored?_eq_some_iff, h.identities, h.stored?]

/-! #### What an operation leaves -/

theorem add (key : String) (etag : WeakEtag) : Tabulated (s.add key etag) (t.add key etag) where
  consistent := h.consistent.add key etag
  identities k := by rw [LinkStore.identities_add, t.linked_add, h.identities, h.identities]
  stored? i := by
    rw [LinkStore.stored?_add, h.stored?]
    exact (Dict.get?_set ..).symm

theorem remove (key : String) : Tabulated (s.without key) (t.remove key) where
  consistent := h.consistent.without key
  identities k := by
    rw [(h.consistent.removed_without key).identities, t.linked_remove, h.identities, h.identities]
  stored? i := by
    rw [t.get?_etags_remove, h.consistent.stored?_without, h.identities, h.stored?]

/-- An operation gets the same answer from both, and leaves them tied. -/
theorem step {c : Cache} (hc : c.store = .bounded s) (r : Request) :
    r.reply c = .ok (t.reply r) ∧
      ∃ s', (r.perform c).store = .bounded s' ∧ Tabulated s' (t.perform r) := by
  cases r with
  | add key etag =>
    obtain ⟨hreply, hstore⟩ := Takes.add s key etag c hc
    exact ⟨congrArg (Except.map Reply.told) hreply, _, hstore, h.add key etag⟩
  | remove key =>
    obtain ⟨hreply, hstore⟩ := Takes.remove s key c hc
    rw [h.contains_eq] at hreply
    exact ⟨congrArg (Except.map Reply.told) hreply, _, hstore, h.remove key⟩
  | holds key =>
    obtain ⟨hreply, hstore⟩ := Takes.holds s key c hc
    rw [h.contains_eq] at hreply
    exact ⟨congrArg (Except.map Reply.told) hreply, _, hstore, h⟩
  | size =>
    obtain ⟨hreply, hstore⟩ := Takes.size s c hc
    rw [h.size_eq] at hreply
    exact ⟨congrArg (fun n => Except.ok (Reply.counted n)) hreply, _, hstore, h⟩
  | find key =>
    obtain ⟨hreply, hstore⟩ := Takes.find s key c hc
    rw [h.get?_eq] at hreply
    exact ⟨congrArg (Except.map Reply.found) hreply, _, hstore, h⟩

theorem replies_eq {c : Cache} (hc : c.store = .bounded s) (requests : List Request) :
    replies c requests = (t.replies requests).map .ok := by
  induction requests generalizing c s t with
  | nil => rfl
  | cons r requests ih =>
    obtain ⟨hreply, s', hs', ht'⟩ := h.step hc r
    show r.reply c :: replies (r.perform c) requests = _
    rw [hreply, ih ht' hs']
    rfl

theorem performAll {c : Cache} (hc : c.store = .bounded s) (requests : List Request) :
    ∃ s', (performAll requests c).store = .bounded s' ∧
      Tabulated s' (t.performAll requests) := by
  unfold Cache.performAll LinkTable.performAll
  induction requests generalizing c s t with
  | nil => exact ⟨s, hc, h⟩
  | cons r requests ih =>
    obtain ⟨-, s', hs', ht'⟩ := h.step hc r
    exact ih ht' hs'

end Tabulated

/-! ### The last written etags -/

/-- The etag that the operation writes, if it is of the identity. -/
def Request.writes (identity : String) : Request → Option WeakEtag
  | .add _ etag => if etag.identity = identity then some etag else none
  | _ => none

/-- The last etag that the operations write for the identity. -/
def lastWritten (requests : List Request) (identity : String) : Option WeakEtag :=
  requests.reverse.findSome? (Request.writes identity)

theorem lastWritten_concat (requests : List Request) (r : Request) (identity : String) :
    lastWritten (requests ++ [r]) identity =
      (r.writes identity).or (lastWritten requests identity) := by
  unfold lastWritten
  rw [List.reverse_append, List.reverse_singleton, List.singleton_append, List.findSome?_cons]
  rcases r.writes identity with - | etag <;> rfl

/-- An operation that writes nothing for an identity gives it no etag. -/
theorem LinkTable.get?_etags_perform {t : LinkTable} {r : Request} {identity : String}
    {etag : WeakEtag} (hget : (t.perform r).etags.get? identity = some etag) :
    (r.writes identity).or (t.etags.get? identity) = some etag := by
  cases r with
  | add key e =>
    have hset : (t.etags.set e.identity e).get? identity = some etag := hget
    rw [Dict.get?_set] at hset
    by_cases hi : e.identity = identity
    · rw [if_pos hi.symm] at hset
      rw [Request.writes, if_pos hi]
      exact hset
    · rw [if_neg (Ne.symm hi)] at hset
      rw [Request.writes, if_neg hi]
      exact hset
  | remove key =>
    have hremoved : (t.remove key).etags.get? identity = some etag := hget
    rw [t.get?_etags_remove] at hremoved
    split at hremoved
    · cases hremoved
    · exact hremoved
  | holds key => exact hget
  | size => exact hget
  | find key => exact hget

/-- What the table holds of an identity was written last. -/
theorem etag_lastWritten (requests : List Request) {identity : String} {etag : WeakEtag}
    (hget : (LinkTable.empty.performAll requests).etags.get? identity = some etag) :
    lastWritten requests identity = some etag := by
  -- on the operations, from the last one back
  induction requests using List.reverseRecOn generalizing etag with
  | nil => cases hget
  | append_singleton requests r ih =>
    unfold LinkTable.performAll at hget ih
    rw [List.foldl_concat] at hget
    have hbefore := LinkTable.get?_etags_perform hget
    rw [lastWritten_concat]
    rcases hwrites : r.writes identity with - | e
    · rw [hwrites, Option.none_or] at hbefore
      exact ih hbefore
    · rw [hwrites] at hbefore
      exact hbefore

/-- Whatever the operations, their keys and their etags: from empty, the cache inside the process
answers as the table of links does.  By every key it finds the last etag that was written for the
identity the key was linked to last, whichever key that was written under. -/
theorem answers_as_table (reports : Telemetry) (requests : List Request) :
    replies { store := .bounded .empty, telemetry := reports } requests =
        (LinkTable.empty.replies requests).map .ok ∧
      ∀ key identity,
        ((LinkTable.empty.performAll requests).linked key).getLast? = some identity →
        ∃ etag, lastWritten requests identity = some etag ∧
          ((find key).run
            (performAll requests { store := .bounded .empty, telemetry := reports })).1 =
              .ok (some etag) := by
  refine ⟨tabulated_empty.replies_eq rfl requests, fun key identity hlast => ?_⟩
  obtain ⟨s, hs, h⟩ := tabulated_empty.performAll
    (c := { store := .bounded .empty, telemetry := reports }) rfl requests
  obtain ⟨etag, hetag⟩ := h.exists_stored hlast
  refine ⟨etag, etag_lastWritten requests hetag, ?_⟩
  rw [(Takes.find s key).answer_eq hs, h.get?_eq, LinkTable.find, hlast]
  exact congrArg Except.ok hetag

/-- Two rows of one version, the first of them written again: its link keeps its place, and so does
that of the second one at the end. -/
example :
    let requests : List Request := [.add "10" ⟨"trees", "oak", "10", "", none⟩,
      .add "10" ⟨"trees", "elm", "10", "", none⟩, .add "10" ⟨"trees", "oak", "10", "later", none⟩]
    (LinkTable.empty.performAll requests).linked "10" = ["trees:oak:10", "trees:elm:10"] := by
  decide

end FreshTag.Cache
