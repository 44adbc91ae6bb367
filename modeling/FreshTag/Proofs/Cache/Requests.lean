/-
FreshTag/Proofs/Cache/Requests.lean

Requests depend on the store alone.  What was reported before an operation makes
no difference to its answer or to the store that it leaves (`Request.congr`).
On a shared store both are read off the commands that the server receives
(`Request.served`), whether or not they succeed.
-/
import FreshTag.Proofs.Cache.Refusals
import FreshTag.Proofs.Cache.Table

namespace FreshTag.Cache

open Redis (Failure Run Server)

/-! ### Requests to a server -/

/-- What a request answers where the server gave an answer, or failed. -/
def answered {α : Type} (answer : α → Except Error Reply) : Except Failure α → Except Error Reply
  | .ok x => answer x
  | .error cause => .error (.backend cause)

/-- The number of stored etags, 0 where the server failed. -/
def counted : Except Failure Nat → Except Error Reply
  | .ok n => .ok (.counted n)
  | .error _ => .ok (.counted 0)

/-- The etag in the text behind a key, if there is a text. -/
def decodedIn : Option String → Except Error (Option WeakEtag)
  | none => .ok none
  | some text => decoded text

/-- What a request on a shared store answers, and the server afterwards. -/
def Request.served (p : KeyPrefix) (server : Server) : Request → Except Error Reply × Server
  | .add key etag =>
    let (answer, after) := (SharedStore.add p key etag).run server
    (answered (fun _ => .ok (.told true)) answer, after)
  | .remove key =>
    let (answer, after) := (SharedStore.remove p key).run server
    (answered (fun found => .ok (.told found)) answer, after)
  | .holds key =>
    let (answer, after) := (SharedStore.contains p key).run server
    (answered (fun found => .ok (.told found)) answer, after)
  | .size =>
    let (answer, after) := (SharedStore.size p).run server
    (counted answer, after)
  | .find key =>
    let (answer, after) := (SharedStore.getText p key).run server
    (answered (fun text => (decodedIn text).map .found) answer, after)

theorem onServer_run {α : Type} (p : KeyPrefix) (server : Server) (run : Run α) (c : Cache) :
    (Cache.onServer p server run).run c =
      ((run.run server).1.mapError .backend,
        { c with store := .shared p (run.run server).2 }) := by
  show Cache.onServer p server run c = _
  unfold Cache.onServer
  have hrun : run server = run.run server := rfl
  rw [hrun]
  rcases run.run server with ⟨cause | x, after⟩ <;> rfl

/-- An operation that goes on with the answer of the server, whatever was reported, and leaves the
store alone then. -/
theorem onServer_answers {α β : Type} (f : α → Op β) (answer : α → Except Error β)
    (hf : ∀ x c, ((f x).run c).1 = answer x ∧ ((f x).run c).2.store = c.store)
    (tell : β → Reply) (p : KeyPrefix) (server : Server) (run : Run α) (c : Cache) :
    ((Cache.onServer p server run >>= f).run c).1.map tell =
        answered (fun x => (answer x).map tell) (run.run server).1 ∧
      ((Cache.onServer p server run >>= f).run c).2.store = .shared p (run.run server).2 := by
  refine ⟨?_, (onServer_bind p server run f (fun x c => (hf x c).2) c).1⟩
  show (ExceptT.bindCont f ((Cache.onServer p server run).run c).1
      ((Cache.onServer p server run).run c).2).1.map tell = _
  rw [onServer_run]
  rcases run.run server with ⟨cause | x, after⟩
  · rfl
  · exact congrArg (Except.map tell) (hf x _).1

/-- An operation that answers what the server answers. -/
theorem onServer_tells {α : Type} (tell : α → Reply) (p : KeyPrefix) (server : Server)
    (run : Run α) (c : Cache) :
    ((Cache.onServer p server run).run c).1.map tell =
        answered (fun x => .ok (tell x)) (run.run server).1 ∧
      ((Cache.onServer p server run).run c).2.store = .shared p (run.run server).2 := by
  rw [onServer_run]
  rcases run.run server with ⟨cause | x, after⟩ <;> exact ⟨rfl, rfl⟩

theorem size_on_shared {p : KeyPrefix} {server : Server} {c : Cache}
    (hc : c.store = .shared p server) :
    Except.ok (.counted (Cache.size c).1) = counted ((SharedStore.size p).run server).1 ∧
      (Cache.size c).2.store = .shared p ((SharedStore.size p).run server).2 := by
  have hlook : ∀ f : Cache → StateM Cache Nat, (get >>= f) c = f c c := fun _ => rfl
  unfold Cache.size
  simp only [hlook, hc]
  rw [bind_of_eq (onServer_run p server (SharedStore.size p) c)]
  rcases (SharedStore.size p).run server with ⟨cause | n, after⟩ <;> exact ⟨rfl, rfl⟩

/-- On a shared store a request answers what comes of the answer of the server, and leaves that
server. -/
theorem Request.on_shared {p : KeyPrefix} {server : Server} {c : Cache}
    (hc : c.store = .shared p server) (r : Request) :
    r.reply c = (r.served p server).1 ∧ (r.perform c).store = .shared p (r.served p server).2 := by
  obtain ⟨store, reports⟩ := c
  obtain rfl : store = .shared p server := hc
  cases r with
  | add key etag =>
    refine onServer_answers (fun _ => do
      log .sharedCache .debug "stored weak etag" [Log.field "key" key]
      return true) (fun _ => .ok true) (fun _ _ => ?_) .told p server
      (SharedStore.add p key etag) _
    exact ⟨rfl, rfl⟩
  | remove key => exact onServer_tells .told p server (SharedStore.remove p key) _
  | holds key => exact onServer_tells .told p server (SharedStore.contains p key) _
  | size => exact size_on_shared rfl
  | find key =>
    refine onServer_answers _ decodedIn (fun text c => ?_) .found p server
      (SharedStore.getText p key) ⟨.shared p server, reports⟩
    rcases text with - | text
    · exact ⟨rfl, rfl⟩
    · simp only [decodedIn, decoded]
      rcases WeakEtag.parse text with cause | etag <;> exact ⟨rfl, rfl⟩

theorem Takes.congr {α β : Type} {op : StateM Cache α} {s t : LinkStore} {x : α}
    (h : Takes op s x t) {c d : Cache} (hc : c.store = .bounded s) (hd : d.store = .bounded s)
    (tell : α → β) : tell (op c).1 = tell (op d).1 ∧ (op c).2.store = (op d).2.store := by
  rw [h.answer_eq hc, h.answer_eq hd, h.store_eq hc, h.store_eq hd]
  exact ⟨rfl, rfl⟩

/-- Two caches with the same store answer a request alike, and have the same store afterwards. -/
theorem Request.congr {c d : Cache} (h : c.store = d.store) (r : Request) :
    r.reply c = r.reply d ∧ (r.perform c).store = (r.perform d).store := by
  rcases hd : d.store with - | links | ⟨p, server⟩
  · obtain ⟨store, reports⟩ := c
    obtain ⟨store', reports'⟩ := d
    obtain rfl : store' = .disabled := hd
    obtain rfl : store = .disabled := h
    cases r <;> exact ⟨rfl, rfl⟩
  · have hc := h.trans hd
    cases r with
    | add key etag => exact (Takes.add links key etag).congr hc hd (Except.map Reply.told)
    | remove key => exact (Takes.remove links key).congr hc hd (Except.map Reply.told)
    | holds key => exact (Takes.holds links key).congr hc hd (Except.map Reply.told)
    | size => exact (Takes.size links).congr hc hd fun n => Except.ok (Reply.counted n)
    | find key => exact (Takes.find links key).congr hc hd (Except.map Reply.found)
  · obtain ⟨hreply, hstore⟩ := r.on_shared (h.trans hd)
    obtain ⟨hreply', hstore'⟩ := r.on_shared hd
    exact ⟨hreply.trans hreply'.symm, hstore.trans hstore'.symm⟩

end FreshTag.Cache
