import AsyncGateway.Db.Table
import AsyncGateway.Gateway.AcceptCreate
import AsyncGateway.Lib.Pool
import AsyncGateway.System.Gateway

/-!
# System — the acceptance of create requests, all at once

Any number of create requests under way on one table (`intake`), interleaved at every operation
with each other and with the writes of other processes.  What a call has done is read off the log
(`Call`): when it took its bucket, the task id it drafted, and whether it inserted its row, was
beaten to it, or answers from the row of another.  `Tidy` is what holds of the table and all calls
in every run.
-/

namespace AsyncGateway

open TaskStatus
open Interleave

/-- A write of another process: it may do anything to a row but change the digest of its request. -/
structure OtherWrite where
  taskId : String
  op : DaoOp
  keeps : ∀ now row, (op.exec now row).2.createReqDigest = row.createReqDigest

inductive IntakeWork : Type where
  | create (request : CreateRequest)
  | write (other : OtherWrite)

def IntakeWork.body (I : Intake) : IntakeWork → AcceptHandler Unit
  | .create r => dispatchCreate I r
  | .write other => do
      let _ ← askAccept (.write other.taskId other.op)
      pure ()

structure IntakeWorld where
  table : Table
  clock : Time
  /-- The task ids that were drawn. -/
  issued : List String

inductive IntakeReply : Type where
  | done
  | fail (message : String)
  | slot (d : SlotDecision)
  | count (n : ℕ)
  | text (s : String)
  | json (doc : Json)
  | http (answer : HttpAnswer)
  | refuse (status : ℕ) (detail : String)

structure IntakeChoice where
  time : Time
  reply : IntakeReply := .done

/-- The answer to an operation: the table answers for itself, a drawn task id was never drawn
before, and the rest is the environment's. -/
def intakeReply (w : IntakeWorld) :
    (o : AcceptOp) → IntakeChoice → Option (Except Exn o.Ans × IntakeWorld)
  | _, ⟨_, .fail message⟩ => some (.error (.infrastructure message), w)
  | .tryAcquire _, ⟨_, .slot d⟩ => some (.ok d, w)
  | .depth _, ⟨_, .count n⟩ => some (.ok n, w)
  | .utcnow, ⟨now, .done⟩ => some (.ok now, w)
  | .now, ⟨now, .done⟩ => some (.ok now, w)
  | .findByIdempotency key bucket, ⟨_, .done⟩ =>
      some (.ok (w.table.findByIdempotency key bucket), w)
  | .newTaskId, ⟨_, .text s⟩ =>
      if s.length = 24 ∧ s ∉ w.issued ∧ ∀ row ∈ w.table.rows, row.taskId ≠ s then
        some (.ok s, { w with issued := s :: w.issued })
      else none
  | .newOpaqueToken, ⟨_, .text s⟩ => some (.ok s, w)
  | .putJson _ _ _, ⟨_, .done⟩ => some (.ok (), w)
  | .getJson _, ⟨_, .json doc⟩ => some (.ok doc, w)
  | .insert row, ⟨_, .done⟩ =>
      match w.table.insert row with
      | some table => some (.ok true, { w with table := table })
      | none => some (.ok false, w)
  | .putCredential _ _ _, ⟨_, .done⟩ => some (.ok (), w)
  | .audit _, ⟨_, .done⟩ => some (.ok (), w)
  | .enqueue _ _, ⟨_, .done⟩ => some (.ok (), w)
  | .inlineSubmit _, ⟨_, .http answer⟩ => some (.ok answer, w)
  | .inlineSubmit _, ⟨_, .refuse status detail⟩ => some (.error (.acceptError status detail), w)
  | .respond _, ⟨_, .done⟩ => some (.ok (), w)
  | .write taskId op, ⟨now, .done⟩ =>
      some ((w.table.exec now taskId op).1.mapError .transitionError,
        { w with table := (w.table.exec now taskId op).2 })
  | _, _ => none

def intakeRespond (w : IntakeWorld) (o : AcceptOp) (γ : IntakeChoice) :
    Option (Except Exn o.Ans × IntakeWorld) :=
  if w.clock ≤ γ.time then
    (intakeReply w o γ).map fun p => (p.1, { p.2 with clock := γ.time })
  else none

/-- **The acceptance of create requests.** -/
abbrev intake (I : Intake) : Machine acceptEffects Exn where
  Kind := IntakeWork
  body := IntakeWork.body I
  World := IntakeWorld
  Choice := IntakeChoice
  respond := intakeRespond

abbrev IntakeLog := List (Event acceptEffects Exn IntakeWork)

/-! ### What a call has done -/

/-- How far a call is. -/
inductive CallStage : Type where
  /-- It has not looked its key up. -/
  | arriving
  /-- The key was free. -/
  | free
  /-- It has drawn a task id, and stores its drafts. -/
  | drafting
  /-- It has inserted its row. -/
  | owning
  /-- Another row of the key was inserted first. -/
  | beaten
  /-- It answers from this row. -/
  | seeing (row : AsyncTask)
  | vanished

structure Call where
  request : CreateRequest
  time : Option Time := none
  taskId : Option String := none
  stage : CallStage := .arriving
  /-- The admission refused it. -/
  refused : Bool := false
  /-- An operation of it failed. -/
  failed : Bool := false
  answer : Option CreateAnswer := none
  halted : Bool := false

namespace Call

variable (I : Intake) (c : Call)

/-- The idempotency key and the bucket, once it has one. -/
def pair : Option (String × ℤ) :=
  c.time.map fun now => ((I.idem c.request).key, windowBucket now (I.window c.request))

def digest : String := (I.idem c.request).bodyDigest

/-- The answers a call may give. -/
def Answers : CreateAnswer → Prop
  | .accepted result =>
      c.stage = .owning ∧ c.taskId = some result.taskId ∨
        ∃ row, c.stage = .seeing row ∧ conflicts row (c.digest I) = false ∧
          result.taskId = row.taskId
  | .refused status _ =>
      c.refused = true ∨ c.failed = true ∨ c.stage = .vanished ∨
        ∃ row, c.stage = .seeing row ∧ conflicts row (c.digest I) = true ∧ status = 409
  | .internalError => c.failed = true

/-- The operations a call may ask for. -/
def Allows : AcceptOp → Prop
  | .utcnow => c.time = none ∧ c.stage = .arriving ∧ 0 < I.maxDepth
  | .findByIdempotency key bucket =>
      c.pair I = some (key, bucket) ∧ (c.stage = .arriving ∨ c.stage = .beaten)
  | .newTaskId => c.stage = .free ∧ c.taskId = none
  | .putJson key _ _ =>
      c.stage = .drafting ∧ ∃ id, c.taskId = some id ∧
        (key = requestKey c.request.auth.tenant id ∨ key = responseKey c.request.auth.tenant id)
  | .insert row =>
      c.stage = .drafting ∧ ∃ id, c.taskId = some id ∧ row.taskId = id ∧
        c.pair I = some (row.idempotencyKey, row.idempotencyBucket) ∧
          row.createReqDigest = some (c.digest I)
  | .putCredential id _ _ => c.stage = .owning ∧ c.taskId = some id
  | .enqueue id _ => c.stage = .owning ∧ c.taskId = some id
  | .inlineSubmit request => c.stage = .owning ∧ c.taskId = some request.taskId
  | .respond answer => c.Answers I answer
  | .write _ _ => False
  | _ => True

/-- After an operation was answered. -/
def next : (o : AcceptOp) → Except Exn o.Ans → Call
  | .tryAcquire _, .ok d => if d.granted then c else { c with refused := true }
  | .depth _, .ok (n : ℕ) => if I.maxDepth ≤ n then { c with refused := true } else c
  | .utcnow, .ok now => { c with time := some now }
  | .findByIdempotency _ _, .ok (some row) => { c with stage := .seeing row }
  | .findByIdempotency _ _, .ok none =>
      { c with stage := match c.stage with
          | .beaten => .vanished
          | _ => .free }
  | .newTaskId, .ok id => { c with taskId := some id, stage := .drafting }
  | .insert _, .ok (b : Bool) => { c with stage := if b then .owning else .beaten }
  | .getJson _, _ => c
  | .respond answer, _ => { c with answer := some answer }
  | _, .error _ => { c with failed := true }
  | _, _ => c

end Call

/-- What is known of a program of the intake. -/
inductive Caller : Type where
  | call (c : Call)
  | other (write : OtherWrite)
  | idle

/-- **The rules of the acceptance.** -/
def intakeRules (I : Intake) : Protocol acceptEffects Exn IntakeWork where
  State := Caller
  start
    | .create r => .call { request := r }
    | .write other => .other other
  idle := .idle
  gone
    | .call c => .call { c with halted := true }
    | _ => .idle
  allows
    | .call c, o => c.answer = none ∧ c.Allows I o
    | .other write, o => o = .write write.taskId write.op
    | .idle, _ => False
  next
    | .call c, o, r => .call (Call.next I c o r)
    | m, _, _ => m
  done
    | .call c => c.answer.isSome = true ∨ c.halted = true
    | _ => True
  done_idle := trivial
  done_gone m := by cases m <;> simp

/-- The call of a program, as the log has it. -/
def callOf (I : Intake) (l : IntakeLog) (t : ℕ) : Option Call :=
  match Protocol.after (M := intake I) (intakeRules I) l t with
  | .call c => some c
  | _ => none

theorem callOf_eq_some {I : Intake} {l : IntakeLog} {t : ℕ} {c : Call} :
    callOf I l t = some c ↔
      Protocol.after (M := intake I) (intakeRules I) l t = .call c := by
  unfold callOf
  cases Protocol.after (M := intake I) (intakeRules I) l t with
  | call d => exact ⟨fun h => by rw [Option.some.inj h], fun h => by rw [Caller.call.inj h]⟩
  | other write => exact ⟨fun h => (nomatch h), fun h => (nomatch h)⟩
  | idle => exact ⟨fun h => (nomatch h), fun h => (nomatch h)⟩

/-! ### The calls keep to the rules -/

section Follow

variable {I : Intake} {c : Call}

theorem wp_askAccept {o : AcceptOp} {Q : Except Exn o.Ans → Caller → Prop} (ha : c.answer = none)
    (ho : c.Allows I o) (hn : ∀ r, Q r (.call (Call.next I c o r))) :
    wp (intakeRules I) (askAccept o) Q (.call c) :=
  wp_perform.mpr ⟨⟨ha, ho⟩, hn⟩

/-- The answer to what `accept_create` comes to. -/
def responseOf : Except Exn AcceptResult → CreateAnswer
  | .ok result => .accepted result
  | .error x => answerOf x

/-- The call has not answered, and may answer with what it came to. -/
def Ready (I : Intake) (r : Except Exn AcceptResult) (m : Caller) : Prop :=
  ∃ c : Call, m = .call c ∧ c.answer = none ∧ c.Answers I (responseOf r)

/-- A call may answer with any exception where an operation of it failed. -/
theorem ready_of_failed (x : Exn) (hf : c.failed = true) (ha : c.answer = none) :
    Ready I (.error x) (.call c) := by
  refine ⟨c, rfl, ha, ?_⟩
  cases x <;> simp [responseOf, answerOf, Call.Answers, hf]

theorem wp_replayOrConflict {row : AsyncTask} (hs : c.stage = .seeing row)
    (ha : c.answer = none) :
    wp (intakeRules I) (replayOrConflict row (c.digest I)) (Ready I) (.call c) := by
  unfold replayOrConflict
  split
  · rename_i hc
    exact ⟨c, rfl, ha, .inr (.inr (.inr ⟨row, hs, hc, rfl⟩))⟩
  · rename_i hc
    have ready : ∀ stored, Ready I (.ok (replayResult row stored)) (.call c) := by
      intro stored
      exact ⟨c, rfl, ha, .inr ⟨row, hs, by simpa using hc, replayResult_taskId row stored⟩⟩
    refine wp_bind.mpr (wp_tryCatch.mpr (wp_askAccept ha trivial fun r => ?_))
    cases r <;> exact ready _

theorem wp_keepCredential {r : CreateRequest} {id : String} (hs : c.stage = .owning)
    (hid : c.taskId = some id) (ha : c.answer = none) :
    wp (intakeRules I) (keepCredential I r id) (fun a m => match a with
      | .ok () => m = .call c
      | .error x => Ready I (.error x) m) (.call c) := by
  refine wp_ite.mpr ⟨fun _ => ?_, fun _ => wp_pure.mpr rfl⟩
  split
  · refine wp_askAccept (o := .putCredential _ _ _) ha ⟨hs, hid⟩ fun a => ?_
    cases a with
    | ok a => rfl
    | error x => exact ready_of_failed x rfl ha
  · exact wp_pure.mpr rfl

theorem wp_acceptInserted {r : CreateRequest} {id : String} (hs : c.stage = .owning)
    (hid : c.taskId = some id) (ha : c.answer = none) :
    wp (intakeRules I) (acceptInserted I r id) (Ready I) (.call c) := by
  have done : ∀ result : AcceptResult, result.taskId = id →
      Ready I (.ok result) (.call c) := fun result hr =>
    ⟨c, rfl, ha, .inl ⟨hs, by rw [hr, hid]⟩⟩
  refine wp_bind.mpr (wp_mono (fun a m hm => ?_) (wp_keepCredential hs hid ha))
  cases a with
  | error x => exact hm
  | ok a =>
      subst hm
      refine wp_bind.mpr (wp_askAccept ha trivial fun a => ?_)
      cases a with
      | error x => exact ready_of_failed x rfl ha
      | ok a =>
          refine wp_ite.mpr ⟨fun _ => ?_, fun _ => ?_⟩
          · refine wp_bind.mpr (wp_askAccept (o := .enqueue _ _) ha ⟨hs, hid⟩ fun a => ?_)
            cases a with
            | error x => exact ready_of_failed x rfl ha
            | ok a => exact done _ rfl
          · refine wp_bind.mpr (wp_askAccept (o := .inlineSubmit _) ha ⟨hs, hid⟩ fun a => ?_)
            cases a with
            | error x => exact ready_of_failed x rfl ha
            | ok a => exact done _ rfl

theorem wp_insertTask {task : AsyncTask} {bucket : ℤ} (hs : c.stage = .drafting)
    (hid : c.taskId = some task.taskId)
    (hp : c.pair I = some (task.idempotencyKey, task.idempotencyBucket))
    (hb : c.pair I = some ((I.idem c.request).key, bucket))
    (hd : task.createReqDigest = some (c.digest I)) (ha : c.answer = none) :
    wp (intakeRules I) (insertTask I c.request bucket task) (Ready I) (.call c) := by
  refine wp_bind.mpr (wp_askAccept (o := .insert _) ha ⟨hs, _, hid, rfl, hp, hd⟩ fun a => ?_)
  rcases a with x | (- | -)
  · exact ready_of_failed x rfl ha
  · let c₁ : Call := { c with stage := .beaten }
    refine wp_bind.mpr (wp_askAccept (c := c₁) (o := .findByIdempotency _ _) ha ⟨hb, .inr rfl⟩
      fun a => ?_)
    rcases a with x | (- | winner)
    · exact ready_of_failed x rfl ha
    · exact ⟨{ c₁ with stage := .vanished }, rfl, ha, .inr (.inr (.inl rfl))⟩
    · exact wp_replayOrConflict (c := { c₁ with stage := .seeing winner }) rfl ha
  · exact wp_acceptInserted (c := { c with stage := .owning }) rfl hid ha

theorem wp_callbackToken {r : CreateRequest} (ha : c.answer = none) :
    wp (intakeRules I) (callbackToken r) (fun a m => match a with
      | .ok _ => m = .call c
      | .error x => Ready I (.error x) m) (.call c) := by
  refine wp_ite.mpr ⟨fun _ => ?_, fun _ => wp_pure.mpr rfl⟩
  refine wp_bind.mpr (wp_askAccept (o := .newOpaqueToken) ha trivial fun a => ?_)
  cases a with
  | error x => exact ready_of_failed x rfl ha
  | ok token => exact wp_pure.mpr rfl

theorem wp_acceptNew {now : Time} (hs : c.stage = .free) (ht : c.time = some now)
    (hid : c.taskId = none) (ha : c.answer = none) :
    wp (intakeRules I) (acceptNew I c.request (windowBucket now (I.window c.request))) (Ready I)
      (.call c) := by
  refine wp_bind.mpr (wp_askAccept (o := .newTaskId) ha ⟨hs, hid⟩ fun a => ?_)
  rcases a with x | id
  · exact ready_of_failed x rfl ha
  refine wp_bind.mpr (wp_askAccept (o := .putJson _ _ _) ha ⟨rfl, id, rfl, .inl rfl⟩ fun a => ?_)
  rcases a with x | -
  · exact ready_of_failed x rfl ha
  refine wp_bind.mpr (wp_askAccept (o := .putJson _ _ _) ha ⟨rfl, id, rfl, .inr rfl⟩ fun a => ?_)
  rcases a with x | -
  · exact ready_of_failed x rfl ha
  refine wp_bind.mpr (wp_askAccept (o := .now) ha trivial fun a => ?_)
  rcases a with x | drawn
  · exact ready_of_failed x rfl ha
  refine wp_bind.mpr (wp_mono (fun a m hm => ?_) (wp_callbackToken ha))
  cases a with
  | error x => exact hm
  | ok token =>
      subst hm
      have hp : c.pair I = some ((I.idem c.request).key, windowBucket now (I.window c.request)) := by
        simp [Call.pair, ht]
      exact wp_insertTask rfl rfl hp hp rfl ha

theorem wp_acceptCreate {r : CreateRequest} :
    wp (intakeRules I) (acceptCreate I r) (Ready I) (.call { request := r }) := by
  refine wp_bind.mpr (wp_askAccept (o := .tryAcquire _) rfl trivial fun a => ?_)
  rcases a with x | decision
  · exact ready_of_failed x rfl rfl
  refine wp_ite.mpr ⟨fun hg => ?_, fun hg => ?_⟩
  · refine ⟨_, rfl, ?_, .inl ?_⟩ <;> simp [Call.next, hg]
  have hc : Call.next I { request := r } (.tryAcquire r.auth.channel) (.ok decision) =
      { request := r } := if_pos (not_not.mp hg)
  rw [hc]
  refine wp_bind.mpr (wp_askAccept (o := .depth _) rfl trivial fun a => ?_)
  rcases a with x | (depth : ℕ)
  · exact ready_of_failed x rfl rfl
  refine wp_ite.mpr ⟨fun hd => ?_, fun hd => ?_⟩
  · refine ⟨_, rfl, ?_, .inl ?_⟩ <;> simp [Call.next, hd]
  have hc : Call.next I { request := r } (.depth "submit:default") (.ok depth) =
      { request := r } := if_neg hd
  rw [hc]
  refine wp_bind.mpr (wp_askAccept (o := .utcnow) rfl ⟨rfl, rfl, by omega⟩ fun a => ?_)
  rcases a with x | (now : Time)
  · exact ready_of_failed x rfl rfl
  let c₁ : Call := { request := r, time := some now }
  refine wp_bind.mpr (wp_askAccept (c := c₁) (o := .findByIdempotency _ _) rfl ⟨rfl, .inl rfl⟩
    fun a => ?_)
  rcases a with x | (- | existing)
  · exact ready_of_failed x rfl rfl
  · exact wp_acceptNew (c := { c₁ with stage := .free }) rfl rfl rfl rfl
  · exact wp_replayOrConflict (c := { c₁ with stage := .seeing existing }) rfl rfl

/-- Every program of the intake keeps to the rules. -/
theorem follows_intake (κ : IntakeWork) :
    Follows (intakeRules I) (κ.body I) ((intakeRules I).start κ) := by
  cases κ with
  | create r =>
      have respond : ∀ {c : Call} {answer : CreateAnswer}, c.answer = none →
          c.Answers I answer → Follows (intakeRules I) (askAccept (.respond answer)) (.call c) :=
        fun ha hc => wp_askAccept (o := .respond _) ha hc fun a => by
          cases a with
          | error x => trivial
          | ok a => exact .inl rfl
      refine wp_bind.mpr (wp_tryCatch.mpr (wp_bind.mpr (wp_mono (fun a m hm => ?_) wp_acceptCreate)))
      obtain ⟨c, rfl, ha, hc⟩ := hm
      cases a with
      | ok result => exact respond ha hc
      | error x => exact respond ha hc
  | write other =>
      refine wp_bind.mpr (wp_perform.mpr ⟨rfl, fun a => ?_⟩)
      cases a <;> trivial

end Follow

/-! ### What a call may come to -/

section Come

variable {I : Intake} {r : CreateRequest} {c : Call} {now : Time} {id : String} {tbl : Table}
  {issued : List String}

theorem may_ask {o : AcceptOp} {Q : Except Exn o.Ans → IntakeWorld → Caller → Prop}
    {w w' : IntakeWorld} (reply : IntakeReply) (a : Except Exn o.Ans)
    (hw : intakeReply w o ⟨now, reply⟩ = some (a, w')) (hclock : w.clock ≤ now)
    (h : Q a { w' with clock := now } (.call (Call.next I c o a))) :
    May (M := intake I) (intakeRules I) (askAccept o) Q w (.call c) :=
  May.perform ⟨now, reply⟩ a (by simp [intakeRespond, hclock, hw]) h

theorem may_keepCredential {Q : Except Exn Unit → IntakeWorld → Caller → Prop}
    (h : Q (.ok ()) ⟨tbl, now, issued⟩ (.call c)) :
    May (M := intake I) (intakeRules I) (keepCredential I r id) Q ⟨tbl, now, issued⟩ (.call c) := by
  unfold keepCredential
  split
  · split
    · exact may_ask .done (.ok ()) rfl (le_refl now) h
    · exact h
  · exact h

/-- A call whose row is in may answer with its task. -/
theorem may_acceptInserted {Q : Except Exn AcceptResult → IntakeWorld → Caller → Prop}
    (h : ∀ result : AcceptResult, result.taskId = id →
      Q (.ok result) ⟨tbl, now, issued⟩ (.call c)) :
    May (M := intake I) (intakeRules I) (acceptInserted I r id) Q ⟨tbl, now, issued⟩
      (.call c) := by
  refine May.bind (may_keepCredential ?_)
  refine May.bind (may_ask .done (.ok ()) rfl (le_refl now) ?_)
  show May _ (if I.queued = true then _ else _) _ _ _
  split
  · exact May.bind (may_ask .done (.ok ()) rfl (le_refl now) (h _ rfl))
  · exact May.bind (may_ask (.http ⟨200, none, []⟩) (.ok ⟨200, none, []⟩) rfl (le_refl now)
      (h _ rfl))

theorem may_callbackToken {Q : Except Exn (Option String) → IntakeWorld → Caller → Prop}
    (h : ∀ token, Q (.ok token) ⟨tbl, now, issued⟩ (.call c)) :
    May (M := intake I) (intakeRules I) (callbackToken r) Q ⟨tbl, now, issued⟩ (.call c) := by
  unfold callbackToken
  split
  · exact May.bind (may_ask (.text "token") (.ok "token") rfl (le_refl now) (h _))
  · exact h none

/-- A call whose key is free may draw any task id that is free, and insert its row. -/
theorem may_acceptNew {bucket : ℤ} {Q : Except Exn AcceptResult → IntakeWorld → Caller → Prop}
    (hfree : tbl.findByIdempotency (I.idem r).key bucket = none) (hlength : id.length = 24)
    (hfresh : id ∉ issued) (habsent : ∀ row ∈ tbl.rows, row.taskId ≠ id)
    (h : ∀ token tbl' result, result.taskId = id →
      tbl'.rows = I.newTask r id bucket now token :: tbl.rows →
      Q (.ok result) ⟨tbl', now, id :: issued⟩
        (.call { c with taskId := some id, stage := .owning })) :
    May (M := intake I) (intakeRules I) (acceptNew I r bucket) Q ⟨tbl, now, issued⟩
      (.call c) := by
  have hdraw : intakeReply ⟨tbl, now, issued⟩ .newTaskId ⟨now, .text id⟩ =
      some (.ok id, ⟨tbl, now, id :: issued⟩) := if_pos ⟨hlength, hfresh, habsent⟩
  refine May.bind (may_ask (.text id) (.ok id) hdraw (le_refl now) ?_)
  refine May.bind (may_ask .done (.ok ()) rfl (le_refl now) ?_)
  refine May.bind (may_ask .done (.ok ()) rfl (le_refl now) ?_)
  refine May.bind (may_ask .done (.ok now) rfl (le_refl now) ?_)
  refine May.bind (may_callbackToken fun token => ?_)
  have habs : ∀ row ∈ tbl.rows, row.taskId ≠ (I.newTask r id bucket now token).taskId ∧
      row.keys.idempotency ≠ (I.newTask r id bucket now token).keys.idempotency := fun row hm =>
    ⟨habsent row hm, Table.findByIdempotency_eq_none.mp hfree row hm⟩
  obtain ⟨tbl', hins⟩ := Table.exists_insert habs
  have hrows := (Table.insert_eq_some.mp hins).2
  have hreply : intakeReply ⟨tbl, now, id :: issued⟩ (.insert (I.newTask r id bucket now token))
      ⟨now, .done⟩ = some (.ok true, ⟨tbl', now, id :: issued⟩) := by
    simp [intakeReply, hins]
  refine May.bind (may_ask .done (.ok true) hreply (le_refl now) ?_)
  exact may_acceptInserted fun result hr => h token tbl' result hr hrows

/-- A call that finds a row of its key may answer from it. -/
theorem may_replayOrConflict {row : AsyncTask} {digest : String}
    {Q : Except Exn AcceptResult → IntakeWorld → Caller → Prop}
    (hconflict : conflicts row digest = true → ∀ detail,
      Q (.error (.acceptError 409 detail)) ⟨tbl, now, issued⟩ (.call c))
    (hreplay : conflicts row digest = false → ∀ result : AcceptResult, result.taskId = row.taskId →
      Q (.ok result) ⟨tbl, now, issued⟩ (.call c)) :
    May (M := intake I) (intakeRules I) (replayOrConflict row digest) Q ⟨tbl, now, issued⟩
      (.call c) := by
  unfold replayOrConflict
  split
  · rename_i hc
    exact hconflict hc _
  · rename_i hc
    refine May.bind (May.tryCatch (may_ask (.json (.obj [])) (.ok (.obj [])) rfl (le_refl now) ?_))
    exact hreplay (by simpa using hc) _ (replayResult_taskId row _)

/-- A call may be admitted, and look its key up at any time that is not past. -/
theorem may_acceptCreate {w : IntakeWorld}
    {Q : Except Exn AcceptResult → IntakeWorld → Caller → Prop} (hdepth : 0 < I.maxDepth)
    (hclock : w.clock ≤ now)
    (hfree : w.table.findByIdempotency (I.idem r).key (windowBucket now (I.window r)) = none →
      May (M := intake I) (intakeRules I) (acceptNew I r (windowBucket now (I.window r))) Q
        ⟨w.table, now, w.issued⟩ (.call { request := r, time := some now, stage := .free }))
    (hfound : ∀ row,
      w.table.findByIdempotency (I.idem r).key (windowBucket now (I.window r)) = some row →
      May (M := intake I) (intakeRules I) (replayOrConflict row (I.idem r).bodyDigest) Q
        ⟨w.table, now, w.issued⟩
        (.call { request := r, time := some now, stage := .seeing row })) :
    May (M := intake I) (intakeRules I) (acceptCreate I r) Q w (.call { request := r }) := by
  refine May.bind (may_ask (.slot ⟨true, none⟩) (.ok ⟨true, none⟩) rfl hclock ?_)
  refine May.bind (may_ask (.count 0) (.ok (0 : ℕ)) rfl (le_refl now) ?_)
  have admits : Call.next I { request := r } (.depth "submit:default") (.ok (0 : ℕ)) =
      { request := r } := if_neg (by omega)
  show May (M := intake I) (intakeRules I) (if I.maxDepth ≤ 0 then _ else _) _
    ⟨w.table, now, w.issued⟩ (.call (Call.next I { request := r } (.depth "submit:default") (.ok (0 : ℕ))))
  rw [admits, if_neg (by omega)]
  refine May.bind (may_ask .done (.ok now) rfl (le_refl now) ?_)
  refine May.bind (may_ask .done (.ok _) rfl (le_refl now) ?_)
  cases hf : w.table.findByIdempotency (I.idem r).key (windowBucket now (I.window r)) with
  | none => exact hfree hf
  | some row => exact hfound row hf

/-- A call answers with what `accept_create` came to. -/
theorem may_dispatchCreate {w : IntakeWorld} {m : Caller}
    {Q : Except Exn Unit → IntakeWorld → Caller → Prop}
    (h : May (M := intake I) (intakeRules I) (acceptCreate I r) (fun e w m =>
      May (M := intake I) (intakeRules I) (askAccept (.respond (responseOf e))) Q w m) w m) :
    May (M := intake I) (intakeRules I) (dispatchCreate I r) Q w m :=
  May.bind (May.tryCatch (May.bind (h.mono fun e w m h => by cases e <;> exact h)))

/-- The first call of a key inserts its row. -/
theorem may_win {w : IntakeWorld} {Q : Except Exn Unit → IntakeWorld → Caller → Prop}
    (hdepth : 0 < I.maxDepth) (hclock : w.clock ≤ now)
    (hfree : w.table.findByIdempotency (I.idem r).key (windowBucket now (I.window r)) = none)
    (hlength : id.length = 24) (hfresh : id ∉ w.issued)
    (habsent : ∀ row ∈ w.table.rows, row.taskId ≠ id)
    (h : ∀ token tbl' result, result.taskId = id →
      tbl'.rows = I.newTask r id (windowBucket now (I.window r)) now token :: w.table.rows →
      Q (.ok ()) ⟨tbl', now, id :: w.issued⟩
        (.call { request := r, time := some now, taskId := some id, stage := .owning,
                 answer := some (.accepted result) })) :
    May (M := intake I) (intakeRules I) (dispatchCreate I r) Q w (.call { request := r }) := by
  refine may_dispatchCreate (may_acceptCreate hdepth hclock (fun _ => ?_) fun row hf => ?_)
  · refine may_acceptNew hfree hlength hfresh habsent fun token tbl' result hr hrows => ?_
    exact may_ask .done (.ok ()) rfl (le_refl now) (h token tbl' result hr hrows)
  · rw [hfree] at hf
    cases hf

/-- A later call of the key answers from the row. -/
theorem may_lose {w : IntakeWorld} {row : AsyncTask}
    {Q : Except Exn Unit → IntakeWorld → Caller → Prop} (hdepth : 0 < I.maxDepth)
    (hclock : w.clock ≤ now)
    (hfound : w.table.findByIdempotency (I.idem r).key (windowBucket now (I.window r)) = some row)
    (hconflict : conflicts row (I.idem r).bodyDigest = true → ∀ detail,
      Q (.ok ()) ⟨w.table, now, w.issued⟩
        (.call { request := r, time := some now, stage := .seeing row,
                 answer := some (.refused 409 detail) }))
    (hreplay : conflicts row (I.idem r).bodyDigest = false →
      ∀ result : AcceptResult, result.taskId = row.taskId → Q (.ok ()) ⟨w.table, now, w.issued⟩
        (.call { request := r, time := some now, stage := .seeing row,
                 answer := some (.accepted result) })) :
    May (M := intake I) (intakeRules I) (dispatchCreate I r) Q w (.call { request := r }) := by
  refine may_dispatchCreate (may_acceptCreate hdepth hclock (fun hf => ?_) fun row' hf => ?_)
  · rw [hfound] at hf
    cases hf
  · rw [hfound] at hf
    cases hf
    refine may_replayOrConflict (fun hc detail => ?_) fun hc result hr => ?_
    · exact may_ask .done (.ok ()) rfl (le_refl now) (hconflict hc detail)
    · exact may_ask .done (.ok ()) rfl (le_refl now) (hreplay hc result hr)

/-- Two calls, the second of which comes when the first has returned. -/
theorem two_calls (r₁ r₂ : CreateRequest) {w : IntakeWorld}
    {R : IntakeWorld → Call → Call → Prop}
    (h : May (M := intake I) (intakeRules I) (dispatchCreate I r₁) (fun _ w' m₁ =>
      May (M := intake I) (intakeRules I) (dispatchCreate I r₂) (fun _ w'' m₂ =>
        ∃ c d, m₁ = .call c ∧ m₂ = .call d ∧ R w'' c d) w' (.call { request := r₂ })) w
      (.call { request := r₁ })) :
    ∃ cfg, Run (intake I).anything ((intake I).initial w) cfg ∧
      ∃ c d, callOf I cfg.log 0 = some c ∧ callOf I cfg.log 1 = some d ∧ R cfg.world c d := by
  obtain ⟨cfg, run, c, d, hc, hd, hR⟩ := May.run_pair (M := intake I) (P := intakeRules I)
    (.create r₁) (.create r₂) h
  exact ⟨cfg, run, c, d, callOf_eq_some.mpr hc, callOf_eq_some.mpr hd, hR⟩

end Come

/-! ### An acceptance to run -/

/-- An acceptance with one template, which hashes the empty body as `sha256` does. -/
def sampleIntake : Intake where
  container := sampleContainer sampleTemplate
  hashing :=
    { sha256 := fun _ => "44136fa355b3678a1146ad16f7e8649e94fb4fc21fe77e8310c060f61caaff8a"
      length_sha256 := fun _ => by decide
      lower := id }

/-- A create request of a tenant, with an empty body and a key of its own. -/
def sampleRequest (tenant : String) : CreateRequest where
  auth := { channel := "channel", tenant := tenant, bearer := none }
  template := sampleTemplate
  version := 1
  body := []
  explicitKey := some "order-1"

/-- No task, and the time 0. -/
def sampleIntakeWorld : IntakeWorld := ⟨⟨[], by simp, by simp⟩, 0, []⟩

end AsyncGateway
