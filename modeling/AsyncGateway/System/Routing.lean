import AsyncGateway.Admin.App
import AsyncGateway.Gateway.AcceptCreate
import AsyncGateway.Tasks.Queues

/-!
# System — the messages, and who reads them

All messages are of five kinds (`Known`): to submit, to settle and to cancel a task, on the shared
queues; to poll it, on the queue of the pool of its template; to transfer its result.  So a message
always has a handler, transfers are on their queue and nothing else is there, and a deployment reads
every message if and only if it has a worker of the transfers, and for the pool of each template,
which is the default one where the registry does not have the template, one that is none
(`messages_are_read`).
-/

namespace Interleave

variable {S : Sig} {ε : Type} {M : Machine S ε}

/-- What no program asks for is in no log. -/
theorem Run.avoids {G : M.Condition} {bad : S.Op → Prop} (hbad : ∀ κ, (M.body κ).Avoids bad)
    {w : M.World} {c : Config M} (h : Run G (M.initial w) c) :
    (∀ t, (c.prog t).Avoids bad) ∧ ∀ t o r, .act t o r ∈ c.log → ¬ bad o := by
  induction h with
  | refl => exact ⟨fun _ => .pure (), fun _ _ _ h => absurd h List.not_mem_nil⟩
  | @more c₁ c₂ run s ih =>
      have updated : ∀ {t : ℕ} {p : Prog S ε Unit}, p.Avoids bad →
          ∀ u, (Function.update c₁.prog t p u).Avoids bad := by
        intro t p hp u
        by_cases hu : u = t
        · subst hu
          rwa [Function.update_self]
        · rw [Function.update_of_ne hu]
          exact ih.1 u
      cases s with
      | spawn κ =>
          refine ⟨updated (hbad κ), fun t o r hmem => ?_⟩
          rcases List.mem_cons.mp hmem with heq | hmem
          · cases heq
          · exact ih.2 t o r hmem
      | @act t o k γ r w hp hw hg =>
          have ht : (Prog.op o k).Avoids bad := hp ▸ ih.1 t
          refine ⟨updated fun o' h' => ht o' (.inr ⟨r, h'⟩), fun t' o' r' hmem => ?_⟩
          rcases List.mem_cons.mp hmem with heq | hmem
          · cases heq
            exact ht o (.inl rfl)
          · exact ih.2 t' o' r' hmem
      | halt hp =>
          refine ⟨updated (.pure ()), fun t o r hmem => ?_⟩
          rcases List.mem_cons.mp hmem with heq | hmem
          · cases heq
          · exact ih.2 t o r hmem

end Interleave

namespace AsyncGateway

open TaskStatus TaskRuntime
open Interleave

/-! ### The kinds of messages -/

/-- The pool of a template of the registry; tasks without a template are polled as by default. -/
def Container.templatePool (C : Container) (alias_ : String) (version : ℕ) : String :=
  (C.registry alias_ version).elim "" (·.pool)

def IsPool (C : Container) (pool : String) : Prop :=
  ∃ alias_ version, C.templatePool alias_ version = pool

/-- The messages there are. -/
inductive Known (C : Container) : Message → Prop where
  | submit (recreated : Bool) :
      Known C { queue := "submit:default", name := "submit_upstream", recreated := recreated }
  | compensate : Known C { queue := "compensate:default", name := "compensate_orphan" }
  | cancel : Known C { queue := "cancel:default", name := "cancel_upstream" }
  | poll {pool : String} (h : IsPool C pool) :
      Known C { queue := pollQueue pool, name := "poll_upstream" }
  | transfer (attempt : ℤ) :
      Known C { queue := transferQueue, name := "store_result", attempt := some attempt }

/-- The message of an operation. -/
def Op.message : Op → Option Message
  | .enqueue m => some m
  | .apply _ also => also
  | _ => none

/-- `p` puts known messages on the bus, whatever it is answered. -/
abbrev Speaks (C : Container) {α : Type} (p : Handler α) : Prop :=
  Prog.Avoids (S := effects) (fun o => ∃ m, Op.message o = some m ∧ ¬ Known C m) p

section Speaks

variable {C : Container} {task : AsyncTask} {t : ResolvedTemplate}
  {strategy : Strategy} {result : UpstreamCallResult}

theorem speaks_ask {o : Op} (h : o.message = none) : Speaks C (ask o) :=
  .perform fun ⟨_, hm, _⟩ => nomatch h.symm.trans hm

theorem speaks_with {o : Op} {m : Message} (h : Known C m) (ho : o.message = some m) :
    Speaks C (ask o) :=
  .perform fun ⟨_, hm, hn⟩ => hn (Option.some.inj (ho.symm.trans hm) ▸ h)

theorem speaks_enqueue {queue name : String} (h : Known C { queue := queue, name := name }) :
    Speaks C (enqueue queue name) := speaks_with h rfl

theorem speaks_now : Speaks C now_ := speaks_ask rfl

theorem speaks_nowPlus {delay : PyFloat} : Speaks C (nowPlus delay) :=
  .bind speaks_now fun _ => .ofExcept _

theorem speaks_backoff {attempt : ℤ} {base cap : Seconds} : Speaks C (backoff attempt base cap) :=
  .bind (speaks_ask rfl) fun _ => .ofExcept _

theorem speaks_audit {event : AuditEvent} : Speaks C (audit event) := speaks_ask rfl

theorem speaks_apply {op : DaoOp} : Speaks C (applyOp op) := speaks_ask rfl

theorem speaks_noteAttribute {attributes : Json.Fields} :
    Speaks C (noteAttribute attributes) := by
  refine .bind (speaks_ask rfl) fun read => ?_
  cases read with
  | none => exact .pure _
  | some read => exact speaks_ask rfl

theorem speaks_noteChannelHealthy {channel : String} : Speaks C (noteChannelHealthy C channel) :=
  .tryCatch (speaks_ask rfl) fun _ => .pure _

theorem speaks_enqueueSelfLater {delay : ℚ} : Speaks C (enqueueSelfLater delay) :=
  .bind speaks_nowPlus fun _ => .bind speaks_apply fun _ => .pure _

theorem speaks_pastDeadline : Speaks C (pastDeadline task) := by
  unfold pastDeadline
  split
  · exact .pure _
  · exact .bind speaks_now fun _ => .pure _

/-- What is done with the template of a task, which is one of the registry. -/
theorem speaks_template {α : Type} {f : ResolvedTemplate × Strategy → Handler α}
    (h : ∀ t strategy, IsPool C t.pool → Speaks C (f (t, strategy))) :
    Speaks C ((template C task).bind f) := by
  have found : ∀ t, C.require task.templateAlias task.templateVersion = .ok t →
      IsPool C t.pool := by
    intro t ht
    refine ⟨task.templateAlias, task.templateVersion, ?_⟩
    unfold Container.require at ht
    split at ht
    · next t' hreg =>
        cases ht
        rw [Container.templatePool, hreg]
        rfl
    · cases ht
  have hbind : (template C task).bind f =
      (Prog.ofExcept (C.require task.templateAlias task.templateVersion)).bind fun t =>
        f (t, C.strategyFor task.channel t) := by
    unfold template raiseIn
    cases C.require task.templateAlias task.templateVersion <;> rfl
  rw [hbind]
  exact .bind_ofExcept fun t ht => h t _ (found t ht)

theorem speaks_terminalSample : Speaks C (terminalSample task) :=
  .bind speaks_now fun _ => speaks_ask rfl

theorem speaks_finalizeTerminal {status : TaskStatus} : Speaks C (finalizeTerminal task status) :=
  .bind speaks_terminalSample fun _ => .bind (speaks_ask rfl) fun _ => speaks_audit

theorem speaks_finalizeSuccess : Speaks C (finalizeSuccess C task t) := by
  have rest : Speaks C (do
      ask .dropCredential
      audit (terminalEvent task
        [("status", .str succeeded.value), ("alias", .str task.templateAlias)])) :=
    .bind (speaks_ask rfl) fun _ => speaks_audit
  exact .bind speaks_terminalSample fun _ =>
    .ite (.bind (speaks_with (.transfer 1) rfl) fun _ => rest) rest

theorem speaks_advanceAndFinalize {dst : TaskStatus} {expected : List TaskStatus}
    {values : List Assign} : Speaks C (advanceAndFinalize task dst expected values) :=
  .bind speaks_apply fun _ => .ite speaks_finalizeTerminal (.pure _)

theorem speaks_withSlot {body : Handler Unit} (h : Speaks C body) :
    Speaks C (withSlot C task body) :=
  .bind (speaks_ask rfl) fun _ => .ite (.tryFinally h (speaks_ask rfl)) speaks_enqueueSelfLater

theorem speaks_call {purpose : Purpose} {request : RenderedRequest} {context : Context}
    {bearer : Option String} : Speaks C (UpstreamClient.call C purpose request context bearer) := by
  refine .bind (speaks_ask rfl) fun violation => ?_
  cases violation with
  | some violation => exact .pure _
  | none =>
      refine .bind (speaks_ask rfl) fun _ => .bind (speaks_ask rfl) fun answer => ?_
      cases answer with
      | error exc => exact .pure _
      | ok response => exact .bind speaks_now fun _ => .pure _

/-! ### The submissions -/

theorem speaks_submissionDead {code : ErrorCode} {message : Option String} {retryable : Bool} :
    Speaks C (submissionDead task code message retryable) :=
  .bind speaks_now fun _ => .bind speaks_apply fun _ => speaks_finalizeTerminal

theorem speaks_releaseForUpstreamWait {expected : List TaskStatus} {delay : PyFloat}
    {code : ErrorCode} {message : Option String} {decrement : Bool} :
    Speaks C (releaseForUpstreamWait C task expected delay code message decrement) :=
  .bind speaks_nowPlus fun _ => .bind speaks_apply fun _ =>
    .ite (.bind speaks_noteAttribute fun _ => .pure _) (.pure _)

theorem speaks_handleCreated (ht : IsPool C t.pool) : Speaks C (handleCreated C task t result) := by
  refine .bind (.ofExcept _) fun found => ?_
  cases found with
  | none => exact .bind speaks_apply fun _ => speaks_enqueue .compensate
  | some upstreamId =>
      have polled : Speaks C (do
          noteChannelHealthy C task.channel
          enqueue (pollQueue t.pool) "poll_upstream") :=
        .bind speaks_noteChannelHealthy fun _ => speaks_enqueue (.poll ht)
      have rest : Speaks C (do
          if task.cancelRequested then enqueue "cancel:default" "cancel_upstream" else pure ()
          noteChannelHealthy C task.channel
          enqueue (pollQueue t.pool) "poll_upstream") :=
        .ite (.bind (speaks_enqueue .cancel) fun _ => polled) polled
      refine .bind (.ofExcept _) fun _ => .bind (speaks_ask rfl) fun _ =>
        .bind speaks_now fun _ => .bind (.ofExcept _) fun _ => .bind speaks_apply fun _ =>
          .ite ?_ (.pure _)
      refine .bind speaks_noteAttribute fun _ => ?_
      cases result.response with
      | none => exact rest
      | some response => exact .bind (speaks_ask rfl) fun _ => rest

theorem speaks_handleSubmitResult (ht : IsPool C t.pool) :
    Speaks C (handleSubmitResult C task t strategy result) := by
  refine .ite speaks_submissionDead (.ite (speaks_handleCreated ht) ?_)
  cases result.classification with
  | none => exact .raise _
  | some c =>
      refine .ite ?_ (.ite ?_ (.ite speaks_submissionDead
        (.ite ?_ (.ite speaks_submissionDead ?_))))
      · exact .bind (speaks_ask rfl) fun _ => .bind (speaks_ask rfl) fun _ =>
          .bind speaks_releaseForUpstreamWait fun _ => .pure _
      · exact .bind (speaks_ask rfl) fun _ => .bind speaks_backoff fun _ =>
          .bind speaks_releaseForUpstreamWait fun _ =>
            .bind speaks_noteAttribute fun _ => speaks_audit
      · exact .bind speaks_apply fun _ => speaks_enqueue .compensate
      · exact .bind speaks_backoff fun _ => .bind speaks_nowPlus fun _ =>
          .bind speaks_apply fun _ => .pure _

theorem speaks_submitWithSlot {bearer : String} (ht : IsPool C t.pool) :
    Speaks C (submitWithSlot C task t strategy bearer) := by
  have body : Speaks C (loadCreateBody task) := by
    unfold loadCreateBody
    split
    · exact .pure _
    · refine .bind (speaks_ask rfl) fun found => ?_
      split <;> exact .pure _
  refine .bind speaks_apply fun _ => .ite (.bind body fun found => ?_) (.pure _)
  cases found with
  | none => exact .bind speaks_now fun _ => speaks_advanceAndFinalize
  | some body =>
      exact .bind (.ofExcept _) fun _ => .bind speaks_call fun _ => speaks_handleSubmitResult ht

theorem speaks_mustReload : Speaks C mustReload := by
  refine .bind (speaks_ask rfl) fun row => ?_
  cases row with
  | none => exact .raise _
  | some task => exact .pure _

theorem speaks_inlineAnswer {req : AcceptedRequest} (ht : IsPool C t.pool) :
    Speaks C (inlineAnswer req t result) :=
  .bind speaks_mustReload fun _ => .ite
    (.bind (speaks_ask rfl) fun _ => .bind (speaks_enqueue (.poll ht)) fun _ => .pure _)
    (.ite (.bind (speaks_ask rfl) fun _ => .pure _) (.bind (speaks_ask rfl) fun _ => .pure _))

theorem speaks_inlineSubmit {req : AcceptedRequest} (ht : IsPool C t.pool) :
    Speaks C (inlineSubmit C req t) := by
  have call : Speaks C (inlineCall C req t) :=
    .bind (speaks_ask rfl) fun _ => .bind (.ofExcept _) fun _ => .bind speaks_call fun _ =>
      .bind speaks_mustReload fun _ => .bind (speaks_handleSubmitResult ht) fun _ => .pure _
  refine .bind speaks_apply fun _ => .ite (.bind (speaks_ask rfl) fun _ => .ite ?_ ?_) ?_
  · exact .bind (.tryFinally call (speaks_ask rfl)) fun _ => speaks_inlineAnswer ht
  · exact .bind speaks_now fun _ => .bind speaks_apply fun _ =>
      .bind (speaks_enqueue (.submit false)) fun _ => .raise _
  · exact .bind (speaks_enqueue (.submit false)) fun _ => .pure _

theorem speaks_submitUpstream :
    Speaks C (submitUpstream C) := by
  refine .bind (speaks_ask rfl) fun row => ?_
  cases row with
  | none => exact .pure _
  | some task =>
      refine .ite (speaks_template fun t strategy ht => .bind speaks_pastDeadline fun _ =>
        .ite speaks_advanceAndFinalize (.ite speaks_advanceAndFinalize ?_)) (.pure _)
      refine .bind (speaks_ask rfl) fun bearer => ?_
      split
      · exact .bind speaks_now fun _ => .bind speaks_apply fun _ => speaks_finalizeTerminal
      · exact speaks_withSlot (speaks_submitWithSlot ht)

/-! ### The polls -/

theorem speaks_reschedule {elapsed : Seconds} {seconds : Option Seconds} :
    Speaks C (reschedule task elapsed seconds) := by
  have rest : ∀ interval : Seconds, Speaks C (do
      let next ← nowPlus (.fin interval)
      let _ ← applyOp (.scheduleNextPoll next)
      pure ()) := fun _ =>
    .bind speaks_nowPlus fun _ => .bind speaks_apply fun _ => .pure _
  unfold reschedule
  split
  · exact rest _
  · exact .bind (speaks_ask rfl) fun _ => rest _

theorem speaks_pollOnce {bearer : Option String} : Speaks C (pollOnce C task t bearer) :=
  .bind (.ofExcept _) fun _ => speaks_call

theorem speaks_enterPollUnrecognized {reason : String} :
    Speaks C (enterPollUnrecognized task result reason) :=
  .bind speaks_nowPlus fun _ => .ite (.bind speaks_apply fun _ => .pure _)
    (.bind speaks_now fun _ => .bind speaks_apply fun _ => speaks_audit)

theorem speaks_handleRunning {elapsed : Seconds} {snapshot : Option Json} {native : String} :
    Speaks C (handleRunning task elapsed snapshot native) :=
  .bind (speaks_ask rfl) fun _ => .bind speaks_nowPlus fun _ => .bind speaks_apply fun _ =>
    .ite (.pure _) (.bind speaks_apply fun _ => .pure _)

theorem speaks_handleSucceeded {snapshot : Option Json} {native : String} :
    Speaks C (handleSucceeded C task t snapshot native result) :=
  .bind (.ofExcept _) fun _ => .bind speaks_now fun _ => .bind speaks_apply fun _ =>
    .ite speaks_finalizeSuccess (.pure _)

theorem speaks_handleFailed {snapshot : Option Json} {native : String} :
    Speaks C (handleFailed task strategy snapshot native) := by
  refine .ite ?_ (.bind speaks_now fun _ => speaks_advanceAndFinalize)
  exact .bind speaks_now fun _ => .bind speaks_backoff fun _ => .bind speaks_nowPlus fun _ =>
    .bind speaks_apply fun _ => .ite speaks_audit (.pure _)

theorem speaks_handlePollError {elapsed : Seconds} :
    Speaks C (handlePollError C task elapsed result) := by
  refine .ite (.bind speaks_now fun _ => .bind speaks_apply fun _ => speaks_finalizeTerminal) ?_
  cases result.classification with
  | none => exact speaks_reschedule
  | some c =>
      refine .ite ?_ (.ite ?_ (.ite (.ite ?_ ?_) ?_))
      · exact .bind (speaks_ask rfl) fun _ => .bind speaks_nowPlus fun _ =>
          .bind speaks_apply fun _ => .pure _
      · exact .bind (speaks_ask rfl) fun _ => .bind speaks_audit fun _ =>
          .bind speaks_backoff fun _ => speaks_reschedule
      · exact .bind speaks_noteAttribute fun _ => .bind speaks_backoff fun _ => speaks_reschedule
      · exact .bind speaks_now fun _ => .bind speaks_apply fun _ => speaks_enqueue .compensate
      · exact .bind speaks_apply fun _ => speaks_reschedule

theorem speaks_handlePollResult : Speaks C (handlePollResult C task t strategy result) := by
  refine .bind speaks_now fun _ => .ite ?_ speaks_handlePollError
  refine .bind speaks_noteChannelHealthy fun _ => .bind (.ofExcept _) fun found => ?_
  cases found with
  | none => exact speaks_enterPollUnrecognized
  | some rawStatus =>
      refine .bind (.ofExcept _) fun snapshot => ?_
      split
      · exact speaks_handleRunning
      · exact speaks_handleSucceeded
      · exact .bind speaks_now fun _ => speaks_advanceAndFinalize
      · exact speaks_handleFailed

theorem speaks_pollUpstream :
    Speaks C (pollUpstream C) := by
  refine .bind (speaks_ask rfl) fun row => ?_
  cases row with
  | none => exact .pure _
  | some task =>
      refine .ite (speaks_enqueue .compensate) (.ite ?_ (.pure _))
      refine speaks_template fun t strategy ht => .bind speaks_pastDeadline fun _ => .ite
        (.bind speaks_now fun _ => speaks_advanceAndFinalize) (.bind (speaks_ask rfl) fun _ => ?_)
      refine .ite speaks_enqueueSelfLater ?_
      split
      · exact .bind speaks_now fun _ => .bind speaks_apply fun _ => .pure _
      · exact .bind (speaks_ask rfl) fun _ => speaks_withSlot
          (.bind speaks_pollOnce fun _ => speaks_handlePollResult)

/-! ### The other handlers -/

theorem speaks_confirm {bearer : Option String} : Speaks C (confirm C task t bearer) := by
  unfold confirm
  split
  · exact .bind (.ofExcept _) fun _ => .bind speaks_call fun _ => .ofExcept _
  · exact .ite (.pure _) (.pure _)
  · exact .pure _

theorem speaks_settleConfirmation (ht : IsPool C t.pool) {c : Confirmation} :
    Speaks C (settleConfirmation task t c) := by
  unfold settleConfirmation
  split
  · exact .bind speaks_nowPlus fun _ => .bind speaks_apply fun _ => speaks_enqueue (.poll ht)
  · exact .bind speaks_now fun _ => .bind speaks_apply fun _ =>
      .ite (speaks_with (.submit true) rfl) (.pure _)
  · exact .bind speaks_backoff fun _ => .bind speaks_nowPlus fun _ =>
      .bind speaks_apply fun _ => .pure _

theorem speaks_compensateOrphan :
    Speaks C (compensateOrphan C) := by
  refine .bind (speaks_ask rfl) fun row => ?_
  cases row with
  | none => exact .pure _
  | some task =>
      refine .ite (speaks_template fun t strategy ht =>
        .ite speaks_advanceAndFinalize ?_) (.pure _)
      dsimp only
      split
      · exact .bind speaks_now fun _ => .bind speaks_apply fun _ =>
          .ite (speaks_enqueue (.poll ht)) (.pure _)
      · refine .bind speaks_now fun _ => .ite speaks_advanceAndFinalize
          (.ite speaks_advanceAndFinalize ?_)
        exact .bind (speaks_ask rfl) fun _ => .bind speaks_confirm fun _ =>
          speaks_settleConfirmation ht

theorem speaks_cancelUpstream :
    Speaks C (cancelUpstream C) := by
  refine .bind (speaks_ask rfl) fun row => ?_
  cases row with
  | none => exact .pure _
  | some task =>
      refine .ite (.pure _) (speaks_template fun t strategy _ => .ite ?_ ?_)
      · exact .bind speaks_noteAttribute fun _ => .ite (.bind speaks_now fun _ =>
          .bind speaks_apply fun _ => speaks_finalizeTerminal) speaks_enqueueSelfLater
      dsimp only
      split
      · exact .bind speaks_now fun _ => speaks_advanceAndFinalize
      · refine .bind (speaks_ask rfl) fun _ => .bind (.ofExcept _) fun _ => .bind speaks_call
          fun _ => .ite (.bind speaks_now fun _ => speaks_advanceAndFinalize) ?_
        exact .bind speaks_noteAttribute fun _ => .bind speaks_backoff fun _ =>
          speaks_enqueueSelfLater

theorem speaks_finalizeTask :
    Speaks C (finalizeTask C) := by
  refine .bind (speaks_ask rfl) fun row => ?_
  cases row with
  | none => exact .pure _
  | some task =>
      refine .ite (speaks_template fun t strategy _ => ?_) (.pure _)
      exact .ite (.bind (speaks_with (.transfer 1) rfl) fun _ => speaks_ask rfl) (speaks_ask rfl)

theorem speaks_transferFailed {detail : String} {refs : Json.Fields} {note : String} :
    Speaks C (transferFailed task detail refs note) :=
  .bind speaks_apply fun _ => speaks_audit

theorem speaks_fetchResult {url : String} : Speaks C (fetchResult C url) := by
  refine .bind (speaks_ask rfl) fun violation => ?_
  cases violation with
  | some violation => exact .pure _
  | none =>
      refine .bind (speaks_ask rfl) fun _ => .bind (speaks_ask rfl) fun answer => ?_
      cases answer with
      | error exc => exact .pure _
      | ok response => exact .ite (.pure _) (.ite (.pure _) (.pure _))

theorem speaks_transfer {attempt : ℤ} {url : String} :
    Speaks C (transfer C task attempt url) := by
  refine .bind (speaks_ask rfl) fun _ => .bind speaks_fetchResult fun fetched => ?_
  split
  · exact .bind (speaks_ask rfl) fun _ => .bind speaks_apply fun _ => .ite speaks_audit (.pure _)
  · exact .ite (.bind speaks_backoff fun _ => .bind speaks_nowPlus fun _ =>
      .bind speaks_apply fun _ => .pure _) speaks_transferFailed

theorem speaks_storeResult {attempt : ℤ} :
    Speaks C (storeResult C attempt) := by
  refine .bind (speaks_ask rfl) fun row => ?_
  cases row with
  | none => exact .pure _
  | some task =>
      refine .ite (speaks_template fun t strategy _ =>
        .ite (.pure _) (.bind (.ofExcept _) fun found => ?_)) (.pure _)
      split
      · exact speaks_transfer
      · exact speaks_transferFailed

/-! ### The routes -/

theorem speaks_answering {route : Handler HttpAnswer} (h : Speaks C route) :
    Speaks C (answering route) := .bind h fun _ => speaks_ask rfl

theorem speaks_presignedResultUrl : Speaks C (presignedResultUrl C task t) := by
  unfold presignedResultUrl
  split
  · exact .ite (speaks_ask rfl) (.pure _)
  · exact .pure _

theorem speaks_snapshotStale {minRefresh : ℚ} : Speaks C (snapshotStale task minRefresh) := by
  unfold snapshotStale
  split
  · exact .bind speaks_now fun _ => .pure _
  · exact .pure _

theorem speaks_refresh {bearer : Option String} :
    Speaks C (refresh C task t strategy bearer) := by
  refine .tryCatch (.bind speaks_pollOnce fun result => .ite ?_ (.pure _)) fun _ => .pure _
  exact .bind speaks_handlePollResult fun _ => .bind (speaks_ask rfl) fun _ => .pure _

theorem speaks_handleQuery {auth : AuthContext} {identifier : String} :
    Speaks C (handleQuery C auth t identifier) := by
  refine .bind (speaks_ask rfl) fun row => ?_
  cases row with
  | none => exact .raise _
  | some task =>
      have shown : ∀ task' : AsyncTask, Speaks C (do
          let resultUrl ← presignedResultUrl C task' t
          let native ← raiseIn (buildNativeQueryResponse C task' t resultUrl)
          let minRefresh := (C.strategyFor auth.channel t).minRefreshInterval.getD 3
          pure (HttpAnswer.mk 200 (some native) (responseHeaders task' minRefresh))) := fun _ =>
        .bind speaks_presignedResultUrl fun _ => .bind (.ofExcept _) fun _ => .pure _
      refine .bind (.ofExcept _) fun _ =>
        .ite (shown task) (.bind speaks_snapshotStale fun _ => ?_)
      exact .ite (.bind speaks_refresh shown) (shown task)

theorem speaks_handleCancel {auth : AuthContext} {identifier : String} :
    Speaks C (handleCancel C auth t identifier) := by
  refine .bind (speaks_ask rfl) fun row => ?_
  cases row with
  | none => exact .raise _
  | some task =>
      refine .bind (.ofExcept _) fun _ => .ite (.pure _) (.bind speaks_apply fun _ => .ite ?_
        (.raise _))
      exact .bind (speaks_enqueue .cancel) fun _ => .bind speaks_audit fun _ =>
        .bind (speaks_ask rfl) fun _ => .pure _

theorem speaks_applyCallback {taskId : String} {event : CallbackEvent} :
    Speaks C (applyCallback C taskId event) := by
  refine .bind (speaks_ask rfl) fun row => ?_
  cases row with
  | none => exact speaks_audit
  | some task =>
      refine .ite speaks_audit ?_
      split
      · exact .pure _
      · rename_i t' _
        unfold applyCallbackTo
        cases t'.mapsStatus (event.rawStatus.getD "") with
        | none => exact .bind speaks_apply fun _ => .pure _
        | some mapped =>
            refine .ite ?_ (.bind (.bind speaks_now fun _ => ?_) fun _ =>
              .ite (.bind speaks_audit fun _ => speaks_finalizeTask) (.pure _))
            · exact .bind speaks_noteAttribute fun _ => .bind speaks_now fun _ =>
                .bind speaks_apply fun _ => speaks_audit
            · split <;> exact speaks_apply

theorem speaks_receiveCallback {payload : Json} :
    Speaks C (receiveCallback C payload) := by
  refine .bind (speaks_ask rfl) fun row => ?_
  cases row with
  | none => exact .pure _
  | some task =>
      have rest : ∀ rawStatus : Option String, Speaks C (do
          let fresh : Bool ← ask (.insertCallbackEvent rawStatus payload)
          if fresh then applyCallback C task.taskId ⟨payload, rawStatus⟩ else pure ()) := fun _ =>
        .bind (speaks_ask rfl) fun _ => .ite (speaks_applyCallback) (.pure _)
      dsimp only
      split
      · exact .bind (.ofExcept _) fun _ => rest _
      · exact rest _

/-! ### The ticks and the operator -/

theorem speaks_selected {select : Time → AsyncTask → Bool} {act : AsyncTask → Handler Unit}
    (h : ∀ task, Speaks C (act task)) : Speaks C (selected select act) := by
  refine .bind speaks_now fun _ => .bind (speaks_ask rfl) fun row => ?_
  cases row with
  | none => exact .pure _
  | some task => exact .ite (h task) (.pure _)

/-- What the scheduler puts on the bus is known. -/
theorem known_targetQueueAndName {queue name : String}
    (h : targetQueueAndName C task = some (queue, name)) :
    Known C { queue := queue, name := name } := by
  unfold targetQueueAndName at h
  obtain ⟨name', hname, heq⟩ := Option.map_eq_some_iff.mp h
  have hcases : name' = "poll_upstream" ∨ name' = "compensate_orphan" ∨
      name' = "submit_upstream" := by
    cases hstatus : dispatchByStatus task.status with
    | none =>
        rw [hstatus] at hname
        dsimp only at hname
        split at hname
        · exact .inr (.inr (Option.some.inj hname).symm)
        · cases hname
    | some found =>
        rw [hstatus] at hname
        obtain rfl := Option.some.inj hname
        cases hs : task.status <;> rw [hs] at hstatus <;> cases hstatus <;> simp
  rcases hcases with rfl | rfl | rfl
  · rw [if_pos rfl] at heq
    cases heq
    exact .poll ⟨_, _, rfl⟩
  · rw [if_neg (by decide), if_neg (by decide), if_pos rfl] at heq
    cases heq
    exact .compensate
  · rw [if_neg (by decide), if_pos rfl] at heq
    cases heq
    exact .submit false

theorem speaks_dispatchDue {leaseSeconds : Seconds} :
    Speaks C (dispatchDue C leaseSeconds) := by
  refine speaks_selected fun task => ?_
  split
  · exact .pure _
  · next h =>
      exact .bind (speaks_with (known_targetQueueAndName h) rfl) fun _ => .pure _

theorem speaks_scanAcceptedStalls {stallSeconds : Seconds} :
    Speaks C (scanAcceptedStalls stallSeconds) := by
  refine speaks_selected fun task => ?_
  split
  · exact speaks_enqueue (.submit false)
  · exact .bind speaks_now fun _ => .bind (speaks_with .compensate rfl) fun _ => .pure _

theorem speaks_closeTask {reason : String} : Speaks C (closeTask reason) := by
  refine .bind (speaks_ask rfl) fun row => ?_
  cases row with
  | none => exact .raise _
  | some task =>
      exact .bind speaks_now fun _ => .bind speaks_apply fun _ => .ite speaks_audit (.raise _)

/-- **Every handler puts known messages on the bus.** -/
theorem speaks_body (ht : IsPool C t.pool) (κ : Work) : Speaks C (κ.body C t) := by
  cases κ with
  | submitUpstream => exact speaks_submitUpstream
  | inlineSubmit req => exact speaks_answering (speaks_inlineSubmit ht)
  | pollUpstream => exact speaks_pollUpstream
  | compensateOrphan => exact speaks_compensateOrphan
  | cancelUpstream => exact speaks_cancelUpstream
  | finalizeTask => exact speaks_finalizeTask
  | storeResult attempt => exact speaks_storeResult
  | query auth identifier => exact speaks_answering speaks_handleQuery
  | cancelRequest auth identifier => exact speaks_answering speaks_handleCancel
  | callback payload => exact speaks_receiveCallback
  | scanAcceptedStalls stallSeconds => exact speaks_scanAcceptedStalls
  | scanDeadlines message =>
      exact speaks_selected fun _ => .bind speaks_now fun _ => .bind speaks_apply fun _ => .pure _
  | boundUnknowns maxLifetime overLimit =>
      exact speaks_selected fun _ => .bind speaks_apply fun _ => .pure _
  | reconcileOrphans stallSeconds =>
      exact speaks_selected fun _ => .bind speaks_now fun _ =>
        .bind (speaks_with .compensate rfl) fun _ => .pure _
  | dispatchPendingTransfers => exact speaks_selected fun _ => speaks_with (.transfer _) rfl
  | dispatchDue leaseSeconds => exact speaks_dispatchDue
  | closeTask reason => exact speaks_closeTask

end Speaks

/-! ### The acceptances and the replays -/

/-- A message that is not known, of an acceptance. -/
def AcceptOp.Unknown (C : Container) : AcceptOp → Prop
  | .enqueue _ m => ¬ Known C m
  | _ => False

/-- A message that is not known, of the administration. -/
def AdminOp.Unknown (C : Container) : AdminOp → Prop
  | .enqueue _ m => ¬ Known C m
  | _ => False

section Others

variable {C : Container} {I : Intake} {r : CreateRequest} {A : AdminApp}

theorem known_acceptCreate : (acceptCreate I r).Avoids (AcceptOp.Unknown C) := by
  have answer : ∀ existing digest,
      (replayOrConflict existing digest).Avoids (AcceptOp.Unknown C) := fun _ _ =>
    .ite (.raise _) (.bind (.tryCatch (.perform id) fun _ => .pure _) fun _ => .pure _)
  have kept : ∀ taskId, (keepCredential I r taskId).Avoids (AcceptOp.Unknown C) := by
    intro taskId
    refine .ite ?_ (.pure ())
    cases nonEmpty r.auth.bearer with
    | none => exact .pure ()
    | some bearer => exact .perform id
  have inserted : ∀ taskId, (acceptInserted I r taskId).Avoids (AcceptOp.Unknown C) :=
    fun taskId => .bind (kept taskId) fun _ => .bind (.perform id) fun _ =>
      .ite (.bind (.perform fun h => h (.submit false)) fun _ => .pure _)
        (.bind (.perform id) fun _ => .pure _)
  have token : (callbackToken r).Avoids (AcceptOp.Unknown C) :=
    .ite (.bind (.perform id) fun _ => .pure _) (.pure _)
  refine .bind (.perform id) fun _ => .ite (.raise _) (.bind (.perform id) fun _ =>
    .ite (.raise _) (.bind (.perform id) fun _ => .bind (.perform id) fun existing => ?_))
  cases existing with
  | some existing => exact answer existing _
  | none =>
      refine .bind (.perform id) fun taskId => .bind (.perform id) fun _ =>
        .bind (.perform id) fun _ => .bind (.perform id) fun _ => .bind token fun _ =>
        .bind (.perform id) fun _ => .ite (inserted _) (.bind (.perform id) fun winner => ?_)
      cases winner with
      | none => exact .raise _
      | some winner => exact answer winner _

theorem known_replayTask {call : AdminApp.ReplayCall} :
    (A.replayTask call).Avoids (AdminOp.Unknown C) := by
  have body : ∀ parent, (AdminApp.parentBody parent).Avoids (AdminOp.Unknown C) := by
    intro parent
    unfold AdminApp.parentBody
    cases nonEmpty parent.createReqRef with
    | none => exact .pure _
    | some ref => exact .bind (.tryCatch (.perform id) fun _ => .pure _) fun _ => .pure _
  have token : ∀ t, (AdminApp.replayToken t).Avoids (AdminOp.Unknown C) := fun t =>
    .ite (.bind (.perform id) fun _ => .pure _) (.pure _)
  refine .bind (.ofExcept _) fun _ => .bind (.perform id) fun row => ?_
  cases row with
  | none => exact .raise _
  | some parent =>
      refine .ite (.raise _) (.ite (.raise _) (.bind (.perform id) fun _ =>
        .bind (.perform id) fun _ => .ite (.raise _) (.bind (.perform id) fun found => ?_)))
      cases found with
      | none => exact .raise _
      | some tv =>
          refine .ite (.raise _) (.bind (body parent) fun body => .ite (.raise _) ?_)
          exact .bind (.perform id) fun _ => .bind (.perform id) fun _ => .bind (.perform id)
            fun _ => .bind (.perform id) fun _ => .bind (token _) fun _ => .bind (.perform id)
            fun _ => .bind (.perform id) fun _ => .bind (.perform fun h => h (.submit false))
            fun _ => .bind (.perform id) fun _ => .pure _

end Others

/-! ### Who reads the messages -/

/-- A message that a run of the handlers, an acceptance or a replay puts on the bus. -/
inductive Put (C : Container) (t : ResolvedTemplate) (m : Message) : Prop where
  | enqueued {w : World} {c : Config (gateway C t)} {u : ℕ}
      (run : Run (gateway C t).anything ((gateway C t).initial w) c)
      (h : (.act u (.enqueue m) (.ok ()) : Event effects Exn Work) ∈ c.log)
  | committed {w : World} {c : Config (gateway C t)} {u : ℕ} {op : DaoOp}
      (run : Run (gateway C t).anything ((gateway C t).initial w) c)
      (h : (.act u (.apply op (some m)) (.ok true) : Event effects Exn Work) ∈ c.log)
  | accepted {I : Intake} {r : CreateRequest} {taskId : String}
      (h : (acceptCreate I r).Asks (.enqueue taskId m))
  | replayed {A : AdminApp} {call : AdminApp.ReplayCall} {taskId : String}
      (h : (A.replayTask call).Asks (.enqueue taskId m))

/-- The deployment has a worker of the transfers, and for the pool of each template one that is
none; it is given by the pools of its workers.  A template the registry does not have is of the
default pool. -/
structure Staffed (C : Container) (deployment : List (List String)) : Prop where
  transfers : ∃ pools ∈ deployment, "transfer" ∈ wantedPools pools
  polls : ∀ alias_ version, ∃ pools ∈ deployment, "transfer" ∉ wantedPools pools ∧
    poolOf (C.templatePool alias_ version) ∈ wantedPools pools

section Read

variable {C : Container} {t : ResolvedTemplate} {m : Message} {deployment : List (List String)}

/-- What is put on the bus is known. -/
theorem Put.known (ht : IsPool C t.pool) (h : Put C t m) : Known C m := by
  have asked : ∀ {w c u o r}, Run (gateway C t).anything ((gateway C t).initial w) c →
      (.act u o r : Event effects Exn Work) ∈ c.log → o.message = some m → Known C m := by
    intro w c u o r run hmem ho
    by_contra hn
    exact (Run.avoids (fun κ => speaks_body ht κ) run).2 u o r hmem ⟨m, ho, hn⟩
  cases h with
  | enqueued run h => exact asked run h rfl
  | committed run h => exact asked run h rfl
  | accepted h => exact not_not.mp (known_acceptCreate _ h)
  | replayed h => exact not_not.mp (known_replayTask _ h)

/-- A message has a handler, and transfers are alone on their queue. -/
theorem Known.handled (h : Known C m) :
    ∃ κ, dispatchMessage m = some κ ∧ (m.queue = transferQueue ↔ κ.isTransfer = true) := by
  cases h with
  | submit recreated =>
      have hne : "submit:default" ≠ transferQueue := by decide
      exact ⟨.submitUpstream, rfl, iff_of_false hne Bool.false_ne_true⟩
  | compensate => exact ⟨.compensateOrphan, rfl, by decide⟩
  | cancel => exact ⟨.cancelUpstream, rfl, by decide⟩
  | transfer attempt => exact ⟨.storeResult attempt, rfl, by simp [Work.isTransfer]⟩
  | @poll pool _ =>
      refine ⟨.pollUpstream, rfl, ?_⟩
      have hne : pollQueue pool ≠ transferQueue := fun heq => by
        have hhead := congrArg (fun s => s.toList.head?) heq
        simp [pollQueue, transferQueue] at hhead
      simp [Work.isTransfer, hne]

theorem Known.read (h : Known C m) (hstaffed : Staffed C deployment) :
    ∃ pools ∈ deployment, m.queue ∈ queuesForPools pools := by
  have shared : ∀ queue ∈ sharedQueues, ∃ pools ∈ deployment, queue ∈ queuesForPools pools := by
    intro queue hqueue
    obtain ⟨pools, hmem, hno, -⟩ := hstaffed.polls "" 0
    exact ⟨pools, hmem, shared_mem_queuesForPools hqueue hno⟩
  cases h with
  | submit recreated => exact shared "submit:default" (by decide)
  | compensate => exact shared "compensate:default" (by decide)
  | cancel => exact shared "cancel:default" (by decide)
  | transfer attempt =>
      obtain ⟨pools, hmem, hyes⟩ := hstaffed.transfers
      exact ⟨pools, hmem, transfer_mem_queuesForPools.mpr hyes⟩
  | poll h =>
      obtain ⟨alias_, version, rfl⟩ := h
      obtain ⟨pools, hmem, hboth⟩ := hstaffed.polls alias_ version
      exact ⟨pools, hmem, poll_mem_queuesForPools.mpr hboth⟩

/-- The result of a task that succeeded is to be transferred. -/
theorem put_transfer :
    Put C t { queue := transferQueue, name := "store_result", attempt := some 1 } := by
  let row : AsyncTask :=
    { sampleRow with status := succeeded, resultRef := none, nextPollAt := some 0 }
  have hexec : ∃ c, ((gateway C t).initial ⟨row, 0⟩).exec (fun _ _ _ _ _ => true)
      [.spawn .dispatchPendingTransfers, .act 0 ⟨0, .done⟩, .act 0 ⟨0, .done⟩,
        .act 0 ⟨0, .done⟩] = some c ∧
      (.act 0 (.enqueue { queue := transferQueue, name := "store_result", attempt := some 1 })
        (.ok ()) : Event effects Exn Work) ∈ c.log := ⟨_, rfl, List.mem_cons_self⟩
  obtain ⟨c, hc, hmem⟩ := hexec
  exact .enqueued (Run.of_exec (fun _ _ _ _ _ _ => trivial) hc) hmem

/-- A task in progress is to be polled, on the queue of its template. -/
theorem put_poll (alias_ : String) (version : ℕ) :
    Put C t { queue := pollQueue (C.templatePool alias_ version), name := "poll_upstream" } := by
  let row : AsyncTask := { sampleRow with status := inProgress, nextPollAt := some 0,
                                          templateAlias := alias_, templateVersion := version }
  have hexec : ∃ c, ((gateway C t).initial ⟨row, 0⟩).exec (fun _ _ _ _ _ => true)
      [.spawn (.dispatchDue 60), .act 0 ⟨0, .done⟩, .act 0 ⟨0, .done⟩, .act 0 ⟨0, .done⟩] =
        some c ∧
      (.act 0 (.apply (.leaseDispatch 60 [inProgress]) (some
        { queue := pollQueue (C.templatePool alias_ version), name := "poll_upstream" }))
        (.ok true) : Event effects Exn Work) ∈ c.log := ⟨_, rfl, List.mem_cons_self⟩
  obtain ⟨c, hc, hmem⟩ := hexec
  exact .committed (Run.of_exec (fun _ _ _ _ _ _ => trivial) hc) hmem

end Read

/-- **Every message has a handler, and a deployment reads all of them if and only if it reads the
transfers, the pool of each template and the default pool of those that are not there**: whatever is put on the bus, `dispatch_message` finds its
handler, and it is on the queue of the transfers just when it is a transfer.  A pool is read only
under its own name, by a worker that is not of the transfers. -/
theorem messages_are_read {C : Container} {t : ResolvedTemplate} {version : ℕ}
    (ht : C.registry t.aliasName version = some t) (deployment : List (List String)) :
    (∀ {m}, Put C t m →
      ∃ κ, dispatchMessage m = some κ ∧ (m.queue = transferQueue ↔ κ.isTransfer = true)) ∧
    ((∀ {m}, Put C t m → ∃ pools ∈ deployment, m.queue ∈ queuesForPools pools) ↔
      Staffed C deployment) := by
  have hpool : IsPool C t.pool := ⟨t.aliasName, version, by rw [Container.templatePool, ht]; rfl⟩
  refine ⟨fun hm => (hm.known hpool).handled, fun hread => ⟨?_, fun alias_ version => ?_⟩,
    fun hstaffed m hm => (hm.known hpool).read hstaffed⟩
  · obtain ⟨pools, hmem, hqueue⟩ := hread put_transfer
    exact ⟨pools, hmem, transfer_mem_queuesForPools.mp hqueue⟩
  · obtain ⟨pools, hmem, hqueue⟩ := hread (put_poll alias_ version)
    exact ⟨pools, hmem, poll_mem_queuesForPools.mp hqueue⟩

/-- A worker of the light polls and one of the transfers read a poll of the sample gateway. -/
theorem sample_poll_is_read :
    (∃ κ, dispatchMessage { queue := "poll:light-poll", name := "poll_upstream" } = some κ ∧
      ("poll:light-poll" = transferQueue ↔ κ.isTransfer = true)) ∧
    ∃ pools ∈ [["light-poll"], ["transfer"]], "poll:light-poll" ∈ queuesForPools pools := by
  have hsample : (sampleContainer sampleTemplate).registry sampleTemplate.aliasName 1 =
      some sampleTemplate := rfl
  have hstaffed : Staffed (sampleContainer sampleTemplate) [["light-poll"], ["transfer"]] := by
    refine ⟨⟨["transfer"], by decide, by decide⟩, fun alias_ version =>
      ⟨["light-poll"], by decide, by decide, ?_⟩⟩
    change poolOf sampleTemplate.pool ∈ _
    decide
  have hall := messages_are_read hsample [["light-poll"], ["transfer"]]
  exact ⟨hall.1 (put_poll "video" 1), hall.2.mpr hstaffed (put_poll "video" 1)⟩

/-- No deployment reads all messages where a template names a pool of the transfers, or one with
white space around it. -/
theorem Staffed.pool {C : Container} {deployment : List (List String)} (h : Staffed C deployment)
    (alias_ : String) (version : ℕ) :
    poolOf (C.templatePool alias_ version) ≠ "transfer" ∧
      String.ofList (Text.strip (poolOf (C.templatePool alias_ version)).toList) =
        poolOf (C.templatePool alias_ version) := by
  obtain ⟨pools, -, hno, hmem⟩ := h.polls alias_ version
  exact ⟨fun heq => hno (heq ▸ hmem), (strip_of_mem_wantedPools hmem).2⟩

example (deployment : List (List String)) :
    ¬ Staffed (sampleContainer { sampleTemplate with pool := "transfer" }) deployment := fun h =>
  (h.pool "video" 1).1 rfl

end AsyncGateway
