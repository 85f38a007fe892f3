import AsyncGateway.System.Gateway

/-!
# System — what all handlers do alike

The parts the handlers share ask for *calm* operations (`Op.calm`): none of them writes to the row
but its attributes and the time of its next poll, and none is of the transfer of a result.

Most operations of the handlers are routine (`Op.routine`): they give no submission intent back, do
not set a deadline, and have no part in the transfer of a result.  All programs but the submissions
and `store_result` ask for routine operations only: one lemma for each function.
-/

namespace AsyncGateway

open TaskStatus TaskRuntime
open Interleave

def Assign.isDeadlineAt : Assign → Bool
  | .deadlineAt _ => true
  | _ => false

/-- The operations of the transfer of a result. -/
def Op.ofTransfer : Op → Bool
  | .send .result _ => true
  | .recv .result => true
  | .putBytes _ _ => true
  | .apply (.setResultRef _ _ _) _ => true
  | .apply (.scheduleTransferRetry _ _) _ => true
  | .apply (.markResultUnavailable _) _ => true
  | _ => false

/-- A release of the intent, or an advance that sets the deadline. -/
def Op.ofWait : Op → Bool
  | .apply (.releaseSubmitIntent _ _ _ _ _ _ _ _) _ => true
  | .apply (.advance _ _ values) _ => values.any Assign.isDeadlineAt
  | _ => false

def Op.routine (o : Op) : Bool := !o.ofWait && !o.ofTransfer

/-- `p` asks for routine operations only, whatever it is answered. -/
abbrev Routine {α : Type} (p : Handler α) : Prop :=
  Prog.Avoids (S := effects) (fun o => Op.routine o = false) p

/-- The operations that write nothing, but the attributes and the time of the next poll, and have no
part in a transfer. -/
def Op.calm : Op → Bool
  | .apply (.scheduleNextPoll _) _ => true
  | .apply (.noteAttribute _ _) _ => true
  | .apply _ _ => false
  | .send .result _ => false
  | .recv .result => false
  | .putBytes _ _ => false
  | _ => true

/-- `p` asks for calm operations only, whatever it is answered. -/
abbrev Calm {α : Type} (p : Handler α) : Prop :=
  Prog.Avoids (S := effects) (fun o => Op.calm o = false) p

section Calm

variable {C : Container} {task : AsyncTask} {t : ResolvedTemplate}

theorem calm_ask {o : Op} (h : o.calm = true) : Calm (ask o) := .perform (by simp [h])

theorem calm_now : Calm now_ := calm_ask rfl

theorem calm_nowPlus {delay : PyFloat} : Calm (nowPlus delay) :=
  .bind calm_now fun _ => .ofExcept _

theorem calm_backoff {attempt : ℤ} {base cap : Seconds} : Calm (backoff attempt base cap) :=
  .bind (calm_ask rfl) fun _ => .ofExcept _

theorem calm_audit {event : AuditEvent} : Calm (audit event) := calm_ask rfl

theorem calm_enqueue {queue name : String} : Calm (enqueue queue name) := calm_ask rfl

theorem calm_noteAttribute {attributes : Json.Fields} : Calm (noteAttribute attributes) := by
  refine .bind (calm_ask rfl) fun read => ?_
  cases read with
  | none => exact .pure _
  | some read => exact calm_ask rfl

theorem calm_noteChannelHealthy {channel : String} : Calm (noteChannelHealthy C channel) :=
  .tryCatch (calm_ask rfl) fun _ => .pure _

theorem calm_enqueueSelfLater {delay : ℚ} : Calm (enqueueSelfLater delay) :=
  .bind calm_nowPlus fun _ => .bind (calm_ask rfl) fun _ => .pure _

theorem calm_pastDeadline : Calm (pastDeadline task) := by
  unfold pastDeadline
  split
  · exact .pure _
  · exact .bind calm_now fun _ => .pure _

theorem calm_template : Calm (template C task) := .bind (.ofExcept _) fun _ => .pure _

theorem calm_terminalSample : Calm (terminalSample task) :=
  .bind calm_now fun _ => calm_ask rfl

theorem calm_finalizeTerminal {status : TaskStatus} : Calm (finalizeTerminal task status) :=
  .bind calm_terminalSample fun _ => .bind (calm_ask rfl) fun _ => calm_audit

theorem calm_finalizeSuccess : Calm (finalizeSuccess C task t) := by
  have rest : Calm (do
      ask .dropCredential
      audit (terminalEvent task
        [("status", .str succeeded.value), ("alias", .str task.templateAlias)])) :=
    .bind (calm_ask rfl) fun _ => calm_audit
  exact .bind calm_terminalSample fun _ => .ite (.bind (calm_ask rfl) fun _ => rest) rest

theorem calm_reschedule {elapsed : Seconds} {seconds : Option Seconds} :
    Calm (reschedule task elapsed seconds) := by
  have rest : ∀ interval : Seconds, Calm (do
      let next ← nowPlus (.fin interval)
      let _ ← applyOp (.scheduleNextPoll next)
      pure ()) := fun _ =>
    .bind calm_nowPlus fun _ => .bind (calm_ask rfl) fun _ => .pure _
  unfold reschedule
  split
  · exact rest _
  · exact .bind (calm_ask rfl) fun _ => rest _

/-- A call to the upstream, but for the fetch of a result. -/
theorem calm_call {purpose : Purpose} {request : RenderedRequest} {context : Context}
    {bearer : Option String} (h : purpose ≠ .result) :
    Calm (UpstreamClient.call C purpose request context bearer) := by
  have sends : (Op.send purpose request).calm = true := by
    cases purpose <;> first | rfl | exact absurd rfl h
  have receives : (Op.recv purpose).calm = true := by
    cases purpose <;> first | rfl | exact absurd rfl h
  refine .bind (calm_ask rfl) fun violation => ?_
  cases violation with
  | some violation => exact .pure _
  | none =>
      refine .bind (calm_ask sends) fun _ => .bind (calm_ask receives) fun answer => ?_
      cases answer with
      | error exc => exact .pure _
      | ok response => exact .bind calm_now fun _ => .pure _

theorem calm_finalizeTask : Calm (finalizeTask C) := by
  refine .bind (calm_ask rfl) fun row => ?_
  cases row with
  | none => exact .pure _
  | some task =>
      refine .ite (.bind calm_template fun found => ?_) (.pure _)
      exact .ite (.bind (calm_ask rfl) fun _ => calm_ask rfl) (calm_ask rfl)

end Calm

section Routine

variable {C : Container} {task : AsyncTask} {t : ResolvedTemplate} {strategy : Strategy}
  {result : UpstreamCallResult}

theorem routine_of_calm {α : Type} {p : Handler α} (h : Calm p) : Routine p := by
  intro o ho hr
  have hq := h o ho
  cases o with
  | apply op also => cases op <;> first | exact hq rfl | cases hr
  | send purpose request => cases purpose <;> first | exact hq rfl | cases hr
  | recv purpose => cases purpose <;> first | exact hq rfl | cases hr
  | _ => first | exact hq rfl | cases hr

theorem routine_ask {o : Op} (h : o.routine = true) : Routine (ask o) := .perform (by simp [h])

theorem routine_apply {op : DaoOp} (h : (Op.apply op none).routine = true) :
    Routine (applyOp op) := routine_ask h

theorem routine_now : Routine now_ := routine_of_calm calm_now

theorem routine_nowPlus {delay : PyFloat} : Routine (nowPlus delay) :=
  routine_of_calm calm_nowPlus

theorem routine_backoff {attempt : ℤ} {base cap : Seconds} : Routine (backoff attempt base cap) :=
  routine_of_calm calm_backoff

theorem routine_audit {event : AuditEvent} : Routine (audit event) := routine_of_calm calm_audit

theorem routine_enqueue {queue name : String} : Routine (enqueue queue name) :=
  routine_of_calm calm_enqueue

theorem routine_noteAttribute {attributes : Json.Fields} : Routine (noteAttribute attributes) :=
  routine_of_calm calm_noteAttribute

theorem routine_noteChannelHealthy {channel : String} : Routine (noteChannelHealthy C channel) :=
  routine_of_calm calm_noteChannelHealthy

theorem routine_enqueueSelfLater {delay : ℚ} : Routine (enqueueSelfLater delay) :=
  routine_of_calm calm_enqueueSelfLater

theorem routine_pastDeadline : Routine (pastDeadline task) := routine_of_calm calm_pastDeadline

theorem routine_template : Routine (template C task) := routine_of_calm calm_template

theorem routine_withSlot {body : Handler Unit} (h : Routine body) :
    Routine (withSlot C task body) :=
  .bind (routine_ask rfl) fun _ => .ite (.tryFinally h (routine_ask rfl)) routine_enqueueSelfLater

theorem routine_finalizeTerminal {status : TaskStatus} : Routine (finalizeTerminal task status) :=
  routine_of_calm calm_finalizeTerminal

theorem routine_finalizeSuccess : Routine (finalizeSuccess C task t) :=
  routine_of_calm calm_finalizeSuccess

theorem routine_advanceAndFinalize {dst : TaskStatus} {expected : List TaskStatus}
    {values : List Assign} (h : values.any Assign.isDeadlineAt = false) :
    Routine (advanceAndFinalize task dst expected values) :=
  .bind (routine_apply (by simp [Op.routine, Op.ofWait, Op.ofTransfer, h])) fun _ =>
    .ite routine_finalizeTerminal (.pure _)

theorem routine_submissionDead {code : ErrorCode} {message : Option String} {retryable : Bool} :
    Routine (submissionDead task code message retryable) :=
  .bind routine_now fun _ => .bind (routine_apply rfl) fun _ => routine_finalizeTerminal

theorem routine_call {purpose : Purpose} {request : RenderedRequest} {context : Context}
    {bearer : Option String} (h : purpose ≠ .result) :
    Routine (UpstreamClient.call C purpose request context bearer) :=
  routine_of_calm (calm_call h)

theorem routine_handleCreated : Routine (handleCreated C task t result) := by
  refine .bind (.ofExcept _) fun found => ?_
  cases found with
  | none => exact .bind (routine_apply rfl) fun _ => routine_enqueue
  | some upstreamId =>
      have polled : Routine (do
          noteChannelHealthy C task.channel
          enqueue (pollQueue t.pool) "poll_upstream") :=
        .bind routine_noteChannelHealthy fun _ => routine_enqueue
      have rest : Routine (do
          if task.cancelRequested then enqueue "cancel:default" "cancel_upstream" else pure ()
          noteChannelHealthy C task.channel
          enqueue (pollQueue t.pool) "poll_upstream") :=
        .ite (.bind routine_enqueue fun _ => polled) polled
      refine .bind (.ofExcept _) fun _ => .bind (routine_ask rfl) fun _ =>
        .bind routine_now fun _ => .bind (.ofExcept _) fun _ => .bind (routine_apply rfl) fun _ =>
          .ite ?_ (.pure _)
      refine .bind routine_noteAttribute fun _ => ?_
      cases result.response with
      | none => exact rest
      | some response => exact .bind (routine_ask rfl) fun _ => rest

/-! ### The polls -/

theorem routine_reschedule {elapsed : Seconds} {seconds : Option Seconds} :
    Routine (reschedule task elapsed seconds) := routine_of_calm calm_reschedule

theorem routine_pollOnce {bearer : Option String} : Routine (pollOnce C task t bearer) :=
  .bind (.ofExcept _) fun _ => routine_call (by decide)

theorem routine_enterPollUnrecognized {reason : String} :
    Routine (enterPollUnrecognized task result reason) :=
  .bind routine_nowPlus fun _ => .ite (.bind (routine_apply rfl) fun _ => .pure _)
    (.bind routine_now fun _ => .bind (routine_apply rfl) fun _ => routine_audit)

theorem routine_handleRunning {elapsed : Seconds} {snapshot : Option Json} {native : String} :
    Routine (handleRunning task elapsed snapshot native) :=
  .bind (routine_ask rfl) fun _ => .bind routine_nowPlus fun _ => .bind (routine_apply rfl) fun _ =>
    .ite (.pure _) (.bind (routine_apply rfl) fun _ => .pure _)

theorem routine_handleSucceeded {snapshot : Option Json} {native : String} :
    Routine (handleSucceeded C task t snapshot native result) :=
  .bind (.ofExcept _) fun _ => .bind routine_now fun _ => .bind (routine_apply rfl) fun _ =>
    .ite routine_finalizeSuccess (.pure _)

theorem routine_handleExpired {snapshot : Option Json} {native : String} :
    Routine (handleExpired task snapshot native) :=
  .bind routine_now fun _ => routine_advanceAndFinalize rfl

theorem routine_handleFailed {snapshot : Option Json} {native : String} :
    Routine (handleFailed task strategy snapshot native) := by
  refine .ite ?_ (.bind routine_now fun _ => routine_advanceAndFinalize rfl)
  exact .bind routine_now fun _ => .bind routine_backoff fun _ => .bind routine_nowPlus fun _ =>
    .bind (routine_apply rfl) fun _ => .ite routine_audit (.pure _)

theorem routine_handlePollError {elapsed : Seconds} :
    Routine (handlePollError C task elapsed result) := by
  refine .ite (.bind routine_now fun _ => .bind (routine_apply rfl) fun _ =>
    routine_finalizeTerminal) ?_
  cases result.classification with
  | none => exact routine_reschedule
  | some c =>
      refine .ite ?_ (.ite ?_ (.ite (.ite ?_ ?_) ?_))
      · exact .bind (routine_ask rfl) fun _ => .bind routine_nowPlus fun _ =>
          .bind (routine_apply rfl) fun _ => .pure _
      · exact .bind (routine_ask rfl) fun _ => .bind routine_audit fun _ =>
          .bind routine_backoff fun _ => routine_reschedule
      · exact .bind routine_noteAttribute fun _ => .bind routine_backoff fun _ => routine_reschedule
      · exact .bind routine_now fun _ => .bind (routine_apply rfl) fun _ => routine_enqueue
      · exact .bind (routine_apply rfl) fun _ => routine_reschedule

theorem routine_handlePollResult : Routine (handlePollResult C task t strategy result) := by
  refine .bind routine_now fun _ => .ite ?_ routine_handlePollError
  refine .bind routine_noteChannelHealthy fun _ => .bind (.ofExcept _) fun found => ?_
  cases found with
  | none => exact routine_enterPollUnrecognized
  | some rawStatus =>
      refine .bind (.ofExcept _) fun snapshot => ?_
      split
      · exact routine_handleRunning
      · exact routine_handleSucceeded
      · exact routine_handleExpired
      · exact routine_handleFailed

theorem routine_pollUpstream : Routine (pollUpstream C) := by
  refine .bind (routine_ask rfl) fun row => ?_
  cases row with
  | none => exact .pure _
  | some task =>
      refine .ite routine_enqueue (.ite ?_ (.pure _))
      refine .bind routine_template fun found => .bind routine_pastDeadline fun _ => .ite
        (.bind routine_now fun _ => routine_advanceAndFinalize rfl)
        (.bind (routine_ask rfl) fun _ => ?_)
      refine .ite routine_enqueueSelfLater ?_
      split
      · exact .bind routine_now fun _ => .bind (routine_apply rfl) fun _ => .pure _
      · exact .bind (routine_ask rfl) fun _ => routine_withSlot
          (.bind routine_pollOnce fun _ => routine_handlePollResult)

/-! ### The other handlers -/

theorem routine_confirm {bearer : Option String} : Routine (confirm C task t bearer) := by
  unfold confirm
  split
  · exact .bind (.ofExcept _) fun _ => .bind (routine_call (by decide)) fun _ => .ofExcept _
  · exact .ite (.pure _) (.pure _)
  · exact .pure _

theorem routine_settleConfirmation {c : Confirmation} : Routine (settleConfirmation task t c) := by
  unfold settleConfirmation
  split
  · exact .bind routine_nowPlus fun _ => .bind (routine_apply rfl) fun _ => routine_enqueue
  · exact .bind routine_now fun _ => .bind (routine_apply rfl) fun _ =>
      .ite (routine_ask rfl) (.pure _)
  · exact .bind routine_backoff fun _ => .bind routine_nowPlus fun _ =>
      .bind (routine_apply rfl) fun _ => .pure _

theorem routine_compensateOrphan : Routine (compensateOrphan C) := by
  refine .bind (routine_ask rfl) fun row => ?_
  cases row with
  | none => exact .pure _
  | some task =>
      refine .ite (.bind routine_template fun _ => .ite (routine_advanceAndFinalize rfl) ?_)
        (.pure _)
      split
      · exact .bind routine_now fun _ => .bind (routine_apply rfl) fun _ =>
          .ite routine_enqueue (.pure _)
      · refine .bind routine_now fun _ => .ite (routine_advanceAndFinalize rfl)
          (.ite (routine_advanceAndFinalize rfl) ?_)
        exact .bind (routine_ask rfl) fun _ => .bind routine_confirm fun _ =>
          routine_settleConfirmation

theorem routine_cancelUpstream : Routine (cancelUpstream C) := by
  refine .bind (routine_ask rfl) fun row => ?_
  cases row with
  | none => exact .pure _
  | some task =>
      refine .ite (.pure _) (.bind routine_template fun _ => .ite ?_ ?_)
      · exact .bind routine_noteAttribute fun _ => .ite (.bind routine_now fun _ =>
          .bind (routine_apply rfl) fun _ => routine_finalizeTerminal) routine_enqueueSelfLater
      split
      · exact .bind routine_now fun _ => routine_advanceAndFinalize rfl
      · refine .bind (routine_ask rfl) fun _ => .bind (.ofExcept _) fun _ =>
          .bind (routine_call (by decide)) fun _ =>
          .ite (.bind routine_now fun _ => routine_advanceAndFinalize rfl) ?_
        exact .bind routine_noteAttribute fun _ => .bind routine_backoff fun _ =>
          routine_enqueueSelfLater

theorem routine_finalizeTask : Routine (finalizeTask C) := routine_of_calm calm_finalizeTask

/-! ### The routes -/

theorem routine_answering {route : Handler HttpAnswer} (h : Routine route) :
    Routine (answering route) :=
  .bind h fun _ => routine_ask rfl

theorem routine_refresh {bearer : Option String} : Routine (refresh C task t strategy bearer) := by
  refine .tryCatch (.bind routine_pollOnce fun result => .ite ?_ (.pure _)) fun _ => .pure _
  exact .bind routine_handlePollResult fun _ => .bind (routine_ask rfl) fun _ => .pure _

theorem routine_presignedResultUrl : Routine (presignedResultUrl C task t) := by
  unfold presignedResultUrl
  split
  · exact .ite (routine_ask rfl) (.pure _)
  · exact .pure _

theorem routine_snapshotStale {minRefresh : ℚ} : Routine (snapshotStale task minRefresh) := by
  unfold snapshotStale
  split
  · exact .bind routine_now fun _ => .pure _
  · exact .pure _

theorem routine_handleQuery {auth : AuthContext} {identifier : String} :
    Routine (handleQuery C auth t identifier) := by
  refine .bind (routine_ask rfl) fun row => ?_
  cases row with
  | none => exact .raise _
  | some task =>
      have shown : ∀ task' : AsyncTask, Routine (do
          let resultUrl ← presignedResultUrl C task' t
          let native ← raiseIn (buildNativeQueryResponse C task' t resultUrl)
          let minRefresh := (C.strategyFor auth.channel t).minRefreshInterval.getD 3
          pure (HttpAnswer.mk 200 (some native) (responseHeaders task' minRefresh))) := fun _ =>
        .bind routine_presignedResultUrl fun _ => .bind (.ofExcept _) fun _ => .pure _
      refine .bind (.ofExcept _) fun _ =>
        .ite (shown task) (.bind routine_snapshotStale fun _ => ?_)
      exact .ite (.bind routine_refresh shown) (shown task)

theorem routine_handleCancel {auth : AuthContext} {identifier : String} :
    Routine (handleCancel C auth t identifier) := by
  refine .bind (routine_ask rfl) fun row => ?_
  cases row with
  | none => exact .raise _
  | some task =>
      refine .bind (.ofExcept _) fun _ => .ite (.pure _) (.bind (routine_apply rfl) fun _ => .ite ?_
        (.raise _))
      exact .bind routine_enqueue fun _ => .bind routine_audit fun _ =>
        .bind (routine_ask rfl) fun _ => .pure _

theorem routine_applyCallback {taskId : String} {event : CallbackEvent} :
    Routine (applyCallback C taskId event) := by
  refine .bind (routine_ask rfl) fun row => ?_
  cases row with
  | none => exact routine_audit
  | some task =>
      refine .ite routine_audit ?_
      split
      · exact .pure _
      · rename_i t' _
        unfold applyCallbackTo
        cases t'.mapsStatus (event.rawStatus.getD "") with
        | none => exact .bind (routine_apply rfl) fun _ => .pure _
        | some mapped =>
            refine .ite ?_ (.bind (.bind routine_now fun _ => ?_) fun _ =>
              .ite (.bind routine_audit fun _ => routine_finalizeTask) (.pure _))
            · exact .bind routine_noteAttribute fun _ => .bind routine_now fun _ =>
                .bind (routine_apply rfl) fun _ => routine_audit
            · split <;> exact routine_apply rfl

theorem routine_receiveCallback {payload : Json} : Routine (receiveCallback C payload) := by
  refine .bind (routine_ask rfl) fun row => ?_
  cases row with
  | none => exact .pure _
  | some task =>
      have rest : ∀ rawStatus : Option String, Routine (do
          let fresh : Bool ← ask (.insertCallbackEvent rawStatus payload)
          if fresh then applyCallback C task.taskId ⟨payload, rawStatus⟩ else pure ()) := fun _ =>
        .bind (routine_ask rfl) fun _ => .ite routine_applyCallback (.pure _)
      dsimp only
      split
      · exact .bind (.ofExcept _) fun _ => rest _
      · exact rest _

/-! ### The ticks and the operator -/

theorem routine_selected {select : Time → AsyncTask → Bool} {act : AsyncTask → Handler Unit}
    (h : ∀ task, Routine (act task)) : Routine (selected select act) := by
  refine .bind routine_now fun _ => .bind (routine_ask rfl) fun row => ?_
  cases row with
  | none => exact .pure _
  | some task => exact .ite (h task) (.pure _)

theorem routine_scanAcceptedStalls {stallSeconds : Seconds} :
    Routine (scanAcceptedStalls stallSeconds) := by
  refine routine_selected fun task => ?_
  split
  · exact routine_enqueue
  · exact .bind routine_now fun _ => .bind (routine_ask rfl) fun _ => .pure _

theorem routine_dispatchDue {leaseSeconds : Seconds} : Routine (dispatchDue C leaseSeconds) := by
  refine routine_selected fun task => ?_
  split
  · exact .pure _
  · exact .bind (routine_ask rfl) fun _ => .pure _

theorem routine_closeTask {reason : String} : Routine (closeTask reason) := by
  refine .bind (routine_ask rfl) fun row => ?_
  cases row with
  | none => exact .raise _
  | some task =>
      exact .bind routine_now fun _ => .bind (routine_apply rfl) fun _ =>
        .ite routine_audit (.raise _)

theorem routine_inlineAnswer {req : AcceptedRequest} : Routine (inlineAnswer req t result) := by
  refine .bind (.bind (routine_ask rfl) fun row => ?_) fun task => .ite ?_ (.ite ?_ ?_)
  · cases row with
    | none => exact .raise _
    | some task => exact .pure _
  · exact .bind (routine_ask rfl) fun _ => .bind routine_enqueue fun _ => .pure _
  · exact .bind (routine_ask rfl) fun _ => .pure _
  · exact .bind (routine_ask rfl) fun _ => .pure _

/-- The handlers that are not routine. -/
def Work.routine : Work → Bool
  | .submitUpstream => false
  | .inlineSubmit _ => false
  | .storeResult _ => false
  | _ => true

/-- **What is routine of the handlers.** -/
theorem routine_body {κ : Work} (h : κ.routine = true) : Routine (κ.body C t) := by
  cases κ with
  | submitUpstream => cases h
  | inlineSubmit req => cases h
  | storeResult attempt => cases h
  | pollUpstream => exact routine_pollUpstream
  | compensateOrphan => exact routine_compensateOrphan
  | cancelUpstream => exact routine_cancelUpstream
  | finalizeTask => exact routine_finalizeTask
  | query auth identifier => exact routine_answering routine_handleQuery
  | cancelRequest auth identifier => exact routine_answering routine_handleCancel
  | callback payload => exact routine_receiveCallback
  | scanAcceptedStalls stallSeconds => exact routine_scanAcceptedStalls
  | scanDeadlines message =>
      exact routine_selected fun _ => .bind routine_now fun _ =>
        .bind (routine_apply rfl) fun _ => .pure _
  | boundUnknowns maxLifetime overLimit =>
      exact routine_selected fun _ => .bind (routine_apply rfl) fun _ => .pure _
  | reconcileOrphans stallSeconds =>
      exact routine_selected fun _ => .bind routine_now fun _ =>
        .bind (routine_ask rfl) fun _ => .pure _
  | dispatchPendingTransfers => exact routine_selected fun _ => routine_ask rfl
  | dispatchDue leaseSeconds => exact routine_dispatchDue
  | closeTask reason => exact routine_closeTask

end Routine

/-! ### What only `store_result` does -/

/-- `p` has no part in the transfer of a result, whatever it is answered. -/
abbrev Apart {α : Type} (p : Handler α) : Prop :=
  Prog.Avoids (S := effects) (fun o => Op.ofTransfer o = true) p

section Apart

variable {C : Container} {task : AsyncTask} {t : ResolvedTemplate} {strategy : Strategy}
  {result : UpstreamCallResult}

theorem apart_of_routine {α : Type} {p : Handler α} (h : Routine p) : Apart p :=
  fun o ho ht => h o ho (by simp [Op.routine, ht])

theorem apart_ask {o : Op} (h : o.ofTransfer = false) : Apart (ask o) := .perform (by simp [h])

theorem apart_submissionDead {code : ErrorCode} {message : Option String} {retryable : Bool} :
    Apart (submissionDead task code message retryable) := apart_of_routine routine_submissionDead

theorem apart_releaseForUpstreamWait {expected : List TaskStatus} {delay : PyFloat}
    {code : ErrorCode} {message : Option String} {decrement : Bool} :
    Apart (releaseForUpstreamWait C task expected delay code message decrement) :=
  .bind (apart_of_routine routine_nowPlus) fun _ => .bind (apart_ask rfl) fun _ =>
    .ite (.bind (apart_of_routine routine_noteAttribute) fun _ => .pure _) (.pure _)

theorem apart_handleSubmitResult : Apart (handleSubmitResult C task t strategy result) := by
  refine .ite apart_submissionDead (.ite (apart_of_routine routine_handleCreated) ?_)
  cases result.classification with
  | none => exact .raise _
  | some c =>
      refine .ite ?_ (.ite ?_ (.ite apart_submissionDead (.ite ?_ (.ite apart_submissionDead ?_))))
      · exact .bind (apart_ask rfl) fun _ => .bind (apart_ask rfl) fun _ =>
          .bind apart_releaseForUpstreamWait fun _ => .pure _
      · exact .bind (apart_ask rfl) fun _ => .bind (apart_of_routine routine_backoff) fun _ =>
          .bind apart_releaseForUpstreamWait fun _ =>
            .bind (apart_of_routine routine_noteAttribute) fun _ => apart_ask rfl
      · exact .bind (apart_ask rfl) fun _ => apart_ask rfl
      · exact .bind (apart_of_routine routine_backoff) fun _ =>
          .bind (apart_of_routine routine_nowPlus) fun _ => .bind (apart_ask rfl) fun _ => .pure _

theorem apart_submitWithSlot {bearer : String} :
    Apart (submitWithSlot C task t strategy bearer) := by
  have body : Apart (loadCreateBody task) := by
    unfold loadCreateBody
    split
    · exact .pure _
    · refine .bind (apart_ask rfl) fun found => ?_
      split <;> exact .pure _
  refine .bind (apart_ask rfl) fun _ => .ite (.bind body fun found => ?_) (.pure _)
  cases found with
  | none =>
      exact apart_of_routine (.bind routine_now fun _ => routine_advanceAndFinalize rfl)
  | some body =>
      exact .bind (.ofExcept _) fun _ =>
        .bind (apart_of_routine (routine_call (by decide))) fun _ => apart_handleSubmitResult

theorem apart_submitUpstream : Apart (submitUpstream C) := by
  refine .bind (apart_ask rfl) fun row => ?_
  cases row with
  | none => exact .pure _
  | some task =>
      have refused : Apart (do
          let now ← now_
          let _ ← applyOp (.advance dead (some [task.status]) (deadValues .upstream4xx
            (some "upstream credential unavailable (expired or not retained)") false now))
          finalizeTerminal task dead) :=
        apart_of_routine (.bind routine_now fun _ => .bind (routine_apply rfl) fun _ =>
          routine_finalizeTerminal)
      refine .ite (.bind (apart_of_routine routine_template) fun found =>
        .bind (apart_of_routine routine_pastDeadline) fun _ =>
          .ite (apart_of_routine (routine_advanceAndFinalize rfl))
            (.ite (apart_of_routine (routine_advanceAndFinalize rfl)) ?_)) (.pure _)
      refine .bind (apart_ask rfl) fun bearer => ?_
      split
      · exact refused
      · exact .bind (apart_ask rfl) fun _ => .ite (.tryFinally apart_submitWithSlot (apart_ask rfl))
          (apart_of_routine routine_enqueueSelfLater)

theorem apart_inlineSubmit {req : AcceptedRequest} : Apart (inlineSubmit C req t) := by
  have reloaded : Apart mustReload := by
    refine .bind (apart_ask rfl) fun row => ?_
    cases row with
    | none => exact .raise _
    | some task => exact .pure _
  have call : Apart (inlineCall C req t) :=
    .bind (apart_ask rfl) fun _ => .bind (.ofExcept _) fun _ =>
      .bind (apart_of_routine (routine_call (by decide))) fun _ => .bind reloaded fun _ =>
        .bind apart_handleSubmitResult fun _ => .pure _
  refine .bind (apart_ask rfl) fun _ => .ite (.bind (apart_ask rfl) fun _ => .ite ?_ ?_) ?_
  · exact .bind (.tryFinally call (apart_ask rfl)) fun _ => apart_of_routine routine_inlineAnswer
  · exact .bind (apart_ask rfl) fun _ => .bind (apart_ask rfl) fun _ =>
      .bind (apart_ask rfl) fun _ => .raise _
  · exact .bind (apart_ask rfl) fun _ => .pure _

/-- **Only `store_result` has a part in the transfer of a result.** -/
theorem apart_body {κ : Work} (h : ∀ attempt, κ ≠ .storeResult attempt) : Apart (κ.body C t) := by
  cases κ with
  | submitUpstream => exact apart_submitUpstream
  | inlineSubmit req => exact .bind apart_inlineSubmit fun _ => apart_ask rfl
  | storeResult attempt => exact absurd rfl (h attempt)
  | _ => exact apart_of_routine (routine_body rfl)

end Apart

end AsyncGateway
