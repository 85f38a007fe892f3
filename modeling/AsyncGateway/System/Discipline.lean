import AsyncGateway.Gateway.Snapshot
import AsyncGateway.System.Gateway

/-!
# System — the discipline of the handlers

What each handler may ask for, given what it asked for and was answered before: a protocol
(`discipline`) over the row it loaded last, the credential it read, and how far it is with a create
call or a confirmation (`Stage`).  What a write may be is `AllowedWrite`: who may claim, report or
release an intent, who may open a task again, and what may be recorded of the upstream.
-/

namespace AsyncGateway

open TaskStatus
open Interleave

/-- How far a handler is with a submission or a confirmation of its own. -/
inductive Stage : Type where
  | free
  /-- It holds the intent, and has sent no create call. -/
  | claimed
  | creating
  | created (r : Except HttpxError HttpResponse)
  /-- The outcome is reported, or given up. -/
  | spent
  /-- The task it submitted was to be cancelled: the message is due. -/
  | owing
  | asking
  /-- The answer to its confirmation query, with the row and the credential it asked with. -/
  | told (row : AsyncTask) (bearer : Option String) (r : Except HttpxError HttpResponse)
  | gone

/-- What is known of a handler from what it did: the rows it loaded, the newest first, the
credential it read, and how far it is. -/
structure Local where
  seen : List AsyncTask := []
  bearer : Option String := none
  stage : Stage := .free

/-- The row it loaded last. -/
def Local.loaded (l : Local) : Option AsyncTask := l.seen.head?

/-- A submission is under way: its intent is claimed, and its outcome not reported. -/
def Stage.underWay : Stage → Prop
  | .claimed => True
  | .creating => True
  | .created _ => True
  | _ => False

/-- The class of the answer to a create call; none for a success. -/
def createClass : Except HttpxError HttpResponse → Option Classification
  | .error exc => some (classifyException exc.kind .submit)
  | .ok response =>
      if 200 ≤ response.statusCode ∧ response.statusCode < 300 then none
      else some (classifyStatus response.statusCode .submit)

/-- 429, 401 and 403: the attempt does not count. -/
def Classification.refunds (c : Classification) : Prop :=
  c.errorClass = .rateLimited ∨ c.channelFault = true

/-- What `_confirm` makes out of the answer to its query. -/
def verdict (C : Container) (t : ResolvedTemplate) (bearer : Option String)
    (r : Except HttpxError HttpResponse) : Except Exn Confirmation :=
  confirmationOf C t <| match r with
    | .error exc => UpstreamClient.ofHttpxError .poll exc
    | .ok response => UpstreamClient.ofResponse C bearer.toList .poll 0 response

/-- The template of a row. -/
def templateOf (C : Container) (row : AsyncTask) : Option ResolvedTemplate :=
  C.registry row.templateAlias row.templateVersion

theorem templateOf_congr {row row' : AsyncTask} (h : row'.templateRef = row.templateRef) :
    templateOf C row' = templateOf C row := by
  obtain ⟨ha, hv⟩ := Prod.mk.inj h
  simp only [templateOf, ha, hv]

/-- The conclusion the handler has from its query. -/
def Concluded (C : Container) (l : Local) (c : Confirmation) : Prop :=
  ∃ row bearer r t, l.stage = .told row bearer r ∧ templateOf C row = some t ∧
    verdict C t bearer r = .ok c ∧ c.confirmed = true

/-- A template the handler may go by: the route's, or the one of a row it loaded. -/
def GoesBy (C : Container) (t : ResolvedTemplate) (l : Local) (t' : ResolvedTemplate) : Prop :=
  t' = t ∨ ∃ row ∈ l.seen, templateOf C row = some t'

/-- Assignments that leave the submission and the identity of the task alone. -/
def Quiet (values : List Assign) : Prop :=
  ∀ a ∈ values, a.ofSubmission = false ∧ a.ofIdentity = false

/-- Assignments that record nothing of the upstream. -/
def Silent (values : List Assign) : Prop := ∀ a ∈ values, a.ofOutput = false

/-- The assignments record this snapshot and this raw status. -/
def Records (values : List Assign) (snapshot : Option Json) (rawStatus : Option String) : Prop :=
  ∀ row, (assign row values).reported = ⟨snapshot, rawStatus⟩

/-- What opens a task again. -/
def recreateValues (now : Time) : List Assign :=
  [.submitStartedAt none, .unknownSince none, .nextPollAt (some now), .errorCode none,
    .errorMessage none]

section Allowed

variable (C : Container) (t : ResolvedTemplate) (l : Local)

/-- The transitions a handler may ask for. -/
def AllowedAdvance (dst : TaskStatus) (expected : Option (List TaskStatus))
    (values : List Assign) : Prop :=
  match dst with
  | accepted =>
      expected = some [submitUnknown] ∧ (∃ now, values = recreateValues now) ∧
        ∃ c, Concluded C l c ∧ nonEmpty c.upstreamId = none
  | upstreamSubmitted => False
  | submitUnknown =>
      (∃ s ∈ [accepted, upstreamSubmitted, inProgress, pollUnrecognized], expected = some [s]) ∧
        Quiet values ∧ Silent values
  | inProgress => Quiet values ∧ Silent values
  | pollUnrecognized => Quiet values ∧ ∃ snapshot, Records values snapshot none
  | failed =>
      Quiet values ∧ ∃ snapshot rawStatus, Records values snapshot rawStatus ∧
        ∀ n, rawStatus = some n →
          (∃ t', GoesBy C t l t' ∧ t'.mapsStatus n = some failed) ∧
            ∃ t', GoesBy C t l t' ∧ Reads t' snapshot n
  | cancelled =>
      Quiet values ∧ ∀ a ∈ values, a.ofOutput = true → a = .rawStatus (some "cancelled")
  | dead =>
      Quiet values ∧ (Silent values ∨ ∃ snapshot rawStatus, Records values snapshot rawStatus ∧
        ∃ t', GoesBy C t l t' ∧ Documented t' snapshot)
  | deadAwaitingConfirm => Quiet values ∧ Silent values
  | succeeded => Quiet values
  | timeout => Quiet values

/-- The release of an intent: the create call was answered with what creates nothing, or there was
no slot for one. -/
def AllowedRelease (expected : List TaskStatus) (decrementAttempts : Bool) : Prop :=
  (expected = [accepted] ∧ decrementAttempts = true ∧ l.stage = .claimed) ∨
    expected = submitSources ∧ ∃ r c, l.stage = .created r ∧ createClass r = some c ∧
      (decrementAttempts = true ∧ c.refunds ∨ decrementAttempts = false ∧ c.errorClass = .retrySafe)

/-- The return of a task to polling, under the id it had when loaded or the one just confirmed. -/
def AllowedRelocate (upstreamTaskId : Option String) (target : TaskStatus) : Prop :=
  target = submitUnknown ∧ upstreamTaskId = none ∨
    target = upstreamSubmitted ∧ (nonEmpty upstreamTaskId).isSome = true ∧
      ((∃ row, l.loaded = some row ∧ l.stage = .free ∧
          nonEmpty row.upstreamTaskId = nonEmpty upstreamTaskId) ∨
        ∃ c, Concluded C l c ∧ c.upstreamId = upstreamTaskId)

/-- The writes a handler may ask for. -/
def AllowedWrite : DaoOp → Prop
  | .markSubmitIntent startedAt => l.stage = .free ∧ startedAt = none
  | .markSubmitted _ _ snapshot _ _ =>
      snapshot = none ∧ ∃ r, l.stage = .created r ∧ createClass r = none
  | .advance dst expected values => AllowedAdvance C t l dst expected values
  | .cancelImmediatelyAfterSubmit => False
  | .recordPollResult snapshot rawStatus _ expected =>
      (∃ s, expected = [s] ∧ s ∉ businessTerminal) ∧
        ∀ n, rawStatus = some n → ∃ t', GoesBy C t l t' ∧ Reads t' snapshot n
  | .markFailure _ _ _ _ _ snapshot => snapshot = none
  | .enterUnknown _ _ expected => expected = none ∧ ∃ r, l.stage = .created r
  | .relocateCompensate upstreamTaskId target rawStatus snapshot _ _ =>
      rawStatus = none ∧ snapshot = none ∧ AllowedRelocate C l upstreamTaskId target
  | .releaseSubmitIntent expected _ decrementAttempts _ _ _ attributes _ =>
      attributes = none ∧ AllowedRelease l expected decrementAttempts
  | _ => True

/-- The confirmation query: the task is in doubt, has no id, is not to be cancelled, and its
template asks by the client key. -/
def AllowedQuery : Prop :=
  l.stage = .free ∧ ∃ row t', l.loaded = some row ∧ row.status = submitUnknown ∧
    templateOf C row = some t' ∧ t'.capabilities.confirmStrategy = .queryByClientKey

/-- The operations a handler may ask for. -/
def Allowed : Op → Prop
  | .apply op _ => AllowedWrite C t l op
  | .send .create _ => l.stage = .claimed
  | .recv .create => l.stage = .creating
  | .send .confirm _ => AllowedQuery C l
  | .recv .confirm => l.stage = .asking
  | _ => True

end Allowed

namespace Local

variable (l : Local)

/-- After a write was answered with `b`. -/
def afterWrite (b : Bool) : DaoOp → Local
  | .markSubmitIntent _ => if b then { l with stage := .claimed } else l
  | .markSubmitted _ _ _ _ _ =>
      if b ∧ l.loaded.any (·.cancelRequested) then { l with stage := .owing }
      else { l with stage := .spent }
  | .releaseSubmitIntent _ _ _ _ _ _ _ _ => { l with stage := .spent }
  | .enterUnknown _ _ _ => { l with stage := .spent }
  | .advance _ _ _ =>
      match l.stage with
      | .claimed => { l with stage := .spent }
      | .created _ => { l with stage := .spent }
      | _ => l
  | _ => l

/-- After an operation was answered. -/
def next : (o : Op) → Except Exn o.Ans → Local
  | .load, .ok row => { l with seen := row.toList ++ l.seen }
  | .findTask _ _, .ok row => { l with seen := row.toList ++ l.seen }
  | .getCredential, .ok bearer => { l with bearer := bearer }
  | .apply op _, .ok b => l.afterWrite b op
  | .send .create _, _ => { l with stage := .creating }
  | .recv .create, .ok r => { l with stage := .created r }
  | .recv .create, .error _ => { l with stage := .spent }
  | .send .confirm _, .ok _ => { l with stage := .asking }
  | .recv .confirm, .ok r =>
      match l.loaded with
      | some row => { l with stage := .told row l.bearer r }
      | none => { l with stage := .spent }
  | .recv .confirm, .error _ => { l with stage := .spent }
  | .enqueue message, .ok _ =>
      match l.stage with
      | .owing => if message.name = "cancel_upstream" then { l with stage := .spent } else l
      | _ => l
  | _, _ => l

end Local

/-- **The discipline of the handlers.** -/
def discipline (C : Container) (t : ResolvedTemplate) : Protocol effects Exn Work where
  State := Local
  start _ := {}
  idle := { stage := .gone }
  gone l := { l with stage := .gone }
  allows := Allowed C t
  next := Local.next
  done l := l.stage ≠ .owing
  done_idle := by simp
  done_gone _ := by simp

/-- Where the discipline has handler `u` after the log. -/
abbrev phase (C : Container) (t : ResolvedTemplate) (log : Log) (u : ℕ) : Local :=
  (discipline C t).after (M := gateway C t) log u

end AsyncGateway
