/-
FreshTag/Proofs/Database/Plans.lean

Requests that are put to a database one after the other.  `issue` goes through a
plan and stops at the first request that is refused; `issueAll` goes on to the
end, whatever is refused.  Both are over any database that keeps a state, so
that what is said of a plan holds of a script of refusals as well as of a
server with schemas and triggers.

A plan in two parts is the first part and, if nothing of it was refused, the
second (`issue_append`).  A script keeps exactly the requests that were put
(`issue_scripted`, `issueAll_scripted`), and which of them it granted can be read
off what it kept (`granted_requests`).
-/
import FreshTag.Database.Script

namespace FreshTag.Database

variable {σ : Type}

/-- Puts a request of which only the success matters. -/
def put (db : Database (StateM σ)) : Request → StateM σ (Except String Unit)
  | .tables => (Except.map fun _ => ()) <$> db.tables
  | .triggers schema => (Except.map fun _ => ()) <$> db.triggers schema
  | .run command => db.run command
  | .listen channel => db.listen channel
  | .listenAgain channel => db.listenAgain channel

/-- What became of a plan: the requests that were granted, and the one that was refused. -/
structure Issued where
  granted : List Request := []
  refused : Option (Request × String) := none

namespace Issued

/-- All requests that were put. -/
def requests (i : Issued) : List Request :=
  i.granted ++ (i.refused.map Prod.fst).toList

theorem requests_of_granted {i : Issued} (h : i.refused = none) : i.requests = i.granted := by
  rw [requests, h]
  exact List.append_nil _

/-- A request was granted before the others. -/
def after (r : Request) (i : Issued) : Issued :=
  { i with granted := r :: i.granted }

/-- The second part of a plan, which is left out if the first part was refused. -/
def andThen (i j : Issued) : Issued :=
  if i.refused.isNone then { granted := i.granted ++ j.granted, refused := j.refused } else i

end Issued

/-- Puts the requests of a plan up to the first that is refused. -/
def issue (db : Database (StateM σ)) : List Request → σ → Issued × σ
  | [], x => ({}, x)
  | r :: plan, x =>
    match db.put r x with
    | (.ok (), y) => ((issue db plan y).1.after r, (issue db plan y).2)
    | (.error cause, y) => ({ refused := some (r, cause) }, y)

/-- Puts all requests, whatever is refused. -/
def issueAll (db : Database (StateM σ)) (requests : List Request) (x : σ) : σ :=
  requests.foldl (fun y r => (db.put r y).2) x

theorem issueAll_cons (db : Database (StateM σ)) (r : Request) (requests : List Request) (x : σ) :
    issueAll db (r :: requests) x = issueAll db requests (db.put r x).2 :=
  rfl

section

variable {db : Database (StateM σ)} {r : Request} {plan : List Request} {x y : σ}

theorem issue_granted (h : db.put r x = (.ok (), y)) :
    issue db (r :: plan) x = ((issue db plan y).1.after r, (issue db plan y).2) := by
  rw [issue, h]

theorem issue_refused {cause : String} (h : db.put r x = (.error cause, y)) :
    issue db (r :: plan) x = ({ refused := some (r, cause) }, y) := by
  rw [issue, h]

/-- The second part of a plan is put if nothing of the first was refused. -/
theorem issue_append (db : Database (StateM σ)) (plan rest : List Request) (x : σ) :
    issue db (plan ++ rest) x =
      if (issue db plan x).1.refused.isNone then
        ((issue db plan x).1.andThen (issue db rest (issue db plan x).2).1,
          (issue db rest (issue db plan x).2).2)
      else issue db plan x := by
  induction plan generalizing x with
  | nil => rfl
  | cons r plan ih =>
    rcases hput : db.put r x with ⟨cause | ⟨⟩, y⟩
    · rw [List.cons_append, issue_refused hput, issue_refused hput]
      rfl
    · rw [List.cons_append, issue_granted hput, issue_granted hput, ih y]
      rcases issue db plan y with ⟨⟨granted, - | refused⟩, z⟩ <;> rfl

/-- If nothing is refused, stopping at a refusal or going on is the same. -/
theorem issueAll_of_granted {db : Database (StateM σ)} {plan : List Request} {x : σ}
    (h : (issue db plan x).1.refused = none) : issueAll db plan x = (issue db plan x).2 := by
  induction plan generalizing x with
  | nil => rfl
  | cons r plan ih =>
    rcases hput : db.put r x with ⟨cause | ⟨⟩, y⟩
    · rw [issue_refused hput] at h
      cases h
    · rw [issue_granted hput] at h ⊢
      rw [issueAll_cons, hput]
      exact ih h

/-- Granted is what stands at the beginning of the plan, and all of it if nothing was refused. -/
theorem granted_issue (db : Database (StateM σ)) (plan : List Request) (x : σ) :
    (issue db plan x).1.granted <+: plan ∧
      ((issue db plan x).1.refused = none → (issue db plan x).1.granted = plan) := by
  induction plan generalizing x with
  | nil => exact ⟨List.prefix_refl _, fun _ => rfl⟩
  | cons r plan ih =>
    rcases hput : db.put r x with ⟨cause | ⟨⟩, y⟩
    · rw [issue_refused hput]
      exact ⟨List.nil_prefix, nofun⟩
    · rw [issue_granted hput]
      obtain ⟨hbegins, hall⟩ := ih y
      exact ⟨(List.cons_prefix_cons).mpr ⟨rfl, hbegins⟩, fun h => congrArg (r :: ·) (hall h)⟩

end

/-! ### Programs that ask a database -/

section

variable {ε τ α β : Type} {p : ExceptT ε (StateT τ (StateM σ)) α}
  {f : α → ExceptT ε (StateT τ (StateM σ)) β} {s s' : τ} {x y : σ}

/-- What follows a part of a program that fails is left out. -/
theorem attempt_bind_error {e : ε} (h : (p.run.run s).run x = ((.error e, s'), y)) :
    ((p >>= f).run.run s).run x = ((.error e, s'), y) := by
  show ExceptT.bindCont f ((p.run.run s).run x).1.1 ((p.run.run s).run x).1.2
    ((p.run.run s).run x).2 = _
  rw [h]
  rfl

theorem attempt_bind_ok {a : α} (h : (p.run.run s).run x = ((.ok a, s'), y)) :
    ((p >>= f).run.run s).run x = ((f a).run.run s').run y := by
  show ExceptT.bindCont f ((p.run.run s).run x).1.1 ((p.run.run s).run x).1.2
    ((p.run.run s).run x).2 = _
  rw [h]
  rfl

/-- Asking the database leaves the state of the program alone. -/
theorem attempt_ask (op : StateM σ α) (s : τ) (x : σ) :
    (((liftM op : ExceptT ε (StateT τ (StateM σ)) α).run).run s).run x =
      ((.ok (op x).1, s), (op x).2) :=
  rfl

end

/-! ### Plans under a script -/

/-- A script grants what it does not refuse, and keeps the request either way. -/
theorem put_scripted (s : Script) (r : Request) (asked : List Request) :
    (scripted s).put r asked =
      ((match s.refuses asked r with
        | some cause => .error cause
        | none => .ok ()), asked ++ [r]) := by
  have hmap : ∀ {α : Type} (x : α), ((Except.map fun _ => ()) <$> s.answer r x) asked =
      ((match s.refuses asked r with
        | some cause => .error cause
        | none => .ok ()), asked ++ [r]) := by
    intro α x
    show (Except.map (fun _ => ()) (s.answer r x asked).1, (s.answer r x asked).2) = _
    unfold Script.answer
    rcases s.refuses asked r <;> rfl
  cases r with
  | tables => exact hmap _
  | triggers schema => exact hmap _
  | run command => rfl
  | listen channel => rfl
  | listenAgain channel => rfl

/-- A script keeps the requests that were put. -/
theorem issue_scripted (s : Script) (plan asked : List Request) :
    (issue (scripted s) plan asked).2 =
      asked ++ (issue (scripted s) plan asked).1.requests := by
  induction plan generalizing asked with
  | nil => exact (List.append_nil asked).symm
  | cons r plan ih =>
    rcases hrefuses : s.refuses asked r with - | cause
    · have hput : (scripted s).put r asked = (.ok (), asked ++ [r]) := by
        rw [put_scripted, hrefuses]
      rw [issue_granted hput]
      show (issue (scripted s) plan (asked ++ [r])).2 = _
      rw [ih, List.append_assoc]
      rfl
    · have hput : (scripted s).put r asked = (.error cause, asked ++ [r]) := by
        rw [put_scripted, hrefuses]
      rw [issue_refused hput]
      rfl

/-- The requests that a script granted of a log, after what was asked before it. -/
def Script.granted (s : Script) (before : List Request) : List Request → List Request
  | [] => []
  | r :: asked =>
    match s.refuses before r with
    | some _ => s.granted (before ++ [r]) asked
    | none => r :: s.granted (before ++ [r]) asked

/-- Of the requests that a plan put, the script granted those that count as granted. -/
theorem granted_requests (s : Script) (plan asked : List Request) :
    s.granted asked (issue (scripted s) plan asked).1.requests =
      (issue (scripted s) plan asked).1.granted := by
  induction plan generalizing asked with
  | nil => rfl
  | cons r plan ih =>
    rcases hrefuses : s.refuses asked r with - | cause
    · have hput : (scripted s).put r asked = (.ok (), asked ++ [r]) := by
        rw [put_scripted, hrefuses]
      rw [issue_granted hput]
      show s.granted asked (r :: (issue (scripted s) plan (asked ++ [r])).1.requests) = _
      rw [Script.granted, hrefuses]
      exact congrArg (r :: ·) (ih (asked ++ [r]))
    · have hput : (scripted s).put r asked = (.error cause, asked ++ [r]) := by
        rw [put_scripted, hrefuses]
      rw [issue_refused hput]
      show s.granted asked [r] = []
      rw [Script.granted, hrefuses]
      rfl

theorem issueAll_scripted (s : Script) (requests asked : List Request) :
    issueAll (scripted s) requests asked = asked ++ requests := by
  induction requests generalizing asked with
  | nil => exact (List.append_nil asked).symm
  | cons r requests ih =>
    show issueAll (scripted s) requests ((scripted s).put r asked).2 = _
    rw [put_scripted, ih, List.append_assoc]
    rfl

end FreshTag.Database
