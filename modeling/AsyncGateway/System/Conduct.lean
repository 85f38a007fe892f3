import AsyncGateway.System.Discipline

/-!
# System — the handlers keep to the discipline

Every handler asks only for what `discipline` allows, and returns only where it may
(`follows_body`).  The operations that tell nothing new leave what is known of a handler as it is
(`Op.plain`), and so does a write of a handler that is not with a submission of its own; what the
rest of a handler does is one lemma for each function of it.
-/

namespace AsyncGateway

open TaskStatus TaskRuntime
open Interleave

variable {C : Container} {t : ResolvedTemplate} {l : Local}

/-! ### Single operations -/

/-- The operations that are always allowed and tell nothing new of the handler. -/
def Op.plain : Op → Bool
  | .load => false
  | .findTask _ _ => false
  | .apply _ _ => false
  | .enqueue _ => false
  | .getCredential => false
  | .send .create _ => false
  | .recv .create => false
  | .send .confirm _ => false
  | .recv .confirm => false
  | _ => true

theorem steady_ask {o : Op} (h : o.plain = true) : Steady (discipline C t) (ask o) l := by
  have hn : ∀ r, l.next o r = l := fun r => by
    cases o with
    | send p _ => cases p <;> cases r <;> first | rfl | cases h
    | recv p => cases p <;> cases r <;> first | rfl | cases h
    | _ => cases r <;> first | rfl | cases h
  have ha : Allowed C t l o := by
    cases o with
    | send p _ => cases p <;> trivial
    | recv p => cases p <;> trivial
    | _ => trivial
  exact Steady.perform ha hn

theorem steady_enqueueAll {message : Message} (hs : l.stage ≠ .owing) :
    Steady (discipline C t) (ask (.enqueue message)) l := by
  refine Steady.perform (by trivial) fun r => ?_
  cases r with
  | error x => rfl
  | ok a => simp only [discipline, Local.next]

theorem steady_enqueue {queue name : String} (hs : l.stage ≠ .owing) :
    Steady (discipline C t) (enqueue queue name) l :=
  steady_enqueueAll hs

/-- The writes that tell nothing new of the handler, where it is not with a submission. -/
def DaoOp.plain : DaoOp → Bool
  | .markSubmitIntent _ => false
  | .markSubmitted _ _ _ _ _ => false
  | .releaseSubmitIntent _ _ _ _ _ _ _ _ => false
  | .enterUnknown _ _ _ => false
  | .advance _ _ _ => false
  | _ => true

theorem steady_apply {op : DaoOp} {also : Option Message} (h : op.plain = true)
    (ha : AllowedWrite C t l op) : Steady (discipline C t) (ask (.apply op also)) l := by
  refine Steady.perform ha fun r => ?_
  cases r with
  | error x => rfl
  | ok b => cases op <;> first | rfl | cases h

theorem steady_advance {dst : TaskStatus} {expected : Option (List TaskStatus)}
    {values : List Assign} {also : Option Message} (hs : ¬ l.stage.underWay)
    (ha : AllowedAdvance C t l dst expected values) :
    Steady (discipline C t) (ask (.apply (.advance dst expected values) also)) l := by
  refine Steady.perform ha fun r => ?_
  cases r with
  | error x => rfl
  | ok b =>
      simp only [discipline, Local.next, Local.afterWrite]
      split <;> first | rfl | simp_all [Stage.underWay]

theorem steady_now : Steady (discipline C t) now_ l := steady_ask rfl

theorem steady_audit {event : AuditEvent} : Steady (discipline C t) (audit event) l :=
  steady_ask rfl

theorem steady_raiseIn {α : Type} (r : Except Exn α) : Steady (discipline C t) (raiseIn r) l :=
  .ofExcept r

theorem steady_backoff {attempt : ℤ} {base cap : Seconds} :
    Steady (discipline C t) (backoff attempt base cap) l :=
  .bind (steady_ask rfl) fun _ => steady_raiseIn _

theorem steady_nowPlus {delay : PyFloat} : Steady (discipline C t) (nowPlus delay) l :=
  .bind steady_now fun _ => steady_raiseIn _

theorem steady_noteAttribute {attributes : Json.Fields} :
    Steady (discipline C t) (noteAttribute attributes) l := by
  refine .bind (steady_ask rfl) fun found => ?_
  cases found with
  | none => exact .pure _
  | some read => exact steady_apply rfl trivial

theorem steady_noteChannelHealthy {channel : String} :
    Steady (discipline C t) (noteChannelHealthy C channel) l :=
  .tryCatch (steady_ask rfl) fun _ => .pure _

theorem steady_enqueueSelfLater {delay : ℚ} :
    Steady (discipline C t) (enqueueSelfLater delay) l :=
  .bind steady_nowPlus fun _ => .bind (steady_apply rfl trivial) fun _ => .pure _

theorem steady_pastDeadline {task : AsyncTask} :
    Steady (discipline C t) (pastDeadline task) l := by
  unfold pastDeadline
  split
  · exact .pure _
  · exact .bind steady_now fun _ => .pure _

theorem steady_terminalSample {task : AsyncTask} :
    Steady (discipline C t) (terminalSample task) l :=
  .bind steady_now fun _ => steady_ask rfl

theorem steady_finalizeTerminal {task : AsyncTask} {status : TaskStatus} :
    Steady (discipline C t) (finalizeTerminal task status) l :=
  .bind steady_terminalSample fun _ => .bind (steady_ask rfl) fun _ => steady_audit

theorem steady_finalizeSuccess {task : AsyncTask} {t' : ResolvedTemplate}
    (hs : l.stage ≠ .owing) : Steady (discipline C t) (finalizeSuccess C task t') l := by
  have rest : Steady (discipline C t) (do
      ask .dropCredential
      audit (terminalEvent task
        [("status", .str succeeded.value), ("alias", .str task.templateAlias)])) l :=
    .bind (steady_ask rfl) fun _ => steady_audit
  refine .bind steady_terminalSample fun _ => ?_
  exact .ite (fun _ => .bind (steady_enqueueAll hs) fun _ => rest) fun _ => rest

theorem steady_advanceAndFinalize {task : AsyncTask} {dst : TaskStatus}
    {expected : List TaskStatus} {values : List Assign} (hs : ¬ l.stage.underWay)
    (ha : AllowedAdvance C t l dst (some expected) values) :
    Steady (discipline C t) (advanceAndFinalize task dst expected values) l :=
  .bind (steady_advance hs ha) fun _ =>
    .ite (fun _ => steady_finalizeTerminal) fun _ => .pure _

/-! ### A handler that is with no submission -/

/-- A handler with no submission of its own and nothing due. -/
def Local.atRest (l : Local) : Prop := ¬ l.stage.underWay ∧ l.stage ≠ .owing

theorem steady_call {purpose : Purpose} {request : RenderedRequest} {context : Context}
    {bearer : Option String} (hp : purpose ≠ .create ∧ purpose ≠ .confirm) :
    Steady (discipline C t) (UpstreamClient.call C purpose request context bearer) l := by
  have hsend : (Op.send purpose request).plain = true := by
    cases purpose <;> simp_all [Op.plain]
  have hrecv : (Op.recv purpose).plain = true := by cases purpose <;> simp_all [Op.plain]
  refine .bind (steady_ask rfl) fun violation => ?_
  cases violation with
  | some _ => exact .pure _
  | none =>
      refine .bind (steady_ask hsend) fun _ => .bind (steady_ask hrecv) fun r => ?_
      cases r with
      | error exc => exact .pure _
      | ok response => exact .bind steady_now fun _ => .pure _

theorem steady_pollOnce {task : AsyncTask} {t' : ResolvedTemplate} {bearer : Option String} :
    Steady (discipline C t) (pollOnce C task t' bearer) l :=
  .bind (steady_raiseIn _) fun _ => steady_call (by decide)

theorem steady_reschedule {task : AsyncTask} {elapsed : Seconds} {seconds : Option Seconds} :
    Steady (discipline C t) (reschedule task elapsed seconds) l := by
  have rest : ∀ interval : Seconds, Steady (discipline C t) (do
      let next ← nowPlus (.fin interval)
      let _ ← applyOp (.scheduleNextPoll next)
      pure ()) l := fun _ =>
    .bind steady_nowPlus fun _ => .bind (steady_apply rfl trivial) fun _ => .pure _
  unfold reschedule
  split
  · exact rest _
  · exact .bind (steady_ask rfl) fun _ => rest _

theorem steady_enterPollUnrecognized {task : AsyncTask} {result : UpstreamCallResult}
    {reason : String} (hl : l.atRest) (hs : task.status ∉ businessTerminal) :
    Steady (discipline C t) (enterPollUnrecognized task result reason) l := by
  refine .bind steady_nowPlus fun _ => .ite (fun _ => ?_) fun _ => ?_
  · exact .bind (steady_apply rfl ⟨⟨_, rfl, hs⟩, by simp⟩) fun _ => .pure _
  · refine .bind steady_now fun now => .bind (steady_advance hl.1 ⟨?_, ?_⟩) fun _ => steady_audit
    · simp [Quiet, Assign.ofSubmission, Assign.ofIdentity]
    · exact ⟨_, fun _ => rfl⟩

/-- Where a task without an upstream that knows it goes. -/
theorem allowed_unknown {task : AsyncTask} {values : List Assign}
    (hs : task.status ∈ [accepted, upstreamSubmitted, inProgress, pollUnrecognized])
    (hq : Quiet values) (hv : Silent values) :
    AllowedAdvance C t l submitUnknown (some [task.status]) values :=
  ⟨⟨_, hs, rfl⟩, hq, hv⟩

theorem steady_handlePollError {task : AsyncTask} {elapsed : Seconds}
    {result : UpstreamCallResult} (hl : l.atRest)
    (hs : task.status ∈ [upstreamSubmitted, inProgress, pollUnrecognized]) :
    Steady (discipline C t) (handlePollError C task elapsed result) l := by
  refine .ite (fun _ => ?_) fun _ => ?_
  · refine .bind steady_now fun _ => .bind (steady_advance hl.1 ⟨?_, .inl ?_⟩) fun _ =>
      steady_finalizeTerminal
    · simp [Quiet, deadValues, Assign.ofSubmission, Assign.ofIdentity]
    · simp [Silent, deadValues, Assign.ofOutput]
  cases result.classification with
  | none => exact steady_reschedule
  | some classification =>
      refine .ite (fun _ => ?_) fun _ => .ite (fun _ => ?_) fun _ => .ite (fun _ => ?_) fun _ => ?_
      · exact .bind (steady_ask rfl) fun _ => .bind steady_nowPlus fun _ =>
          .bind (steady_apply rfl rfl) fun _ => .pure _
      · exact .bind (steady_ask rfl) fun _ => .bind steady_audit fun _ =>
          .bind steady_backoff fun _ => steady_reschedule
      · refine .ite (fun _ => ?_) fun _ => ?_
        · exact .bind steady_noteAttribute fun _ => .bind steady_backoff fun _ =>
            steady_reschedule
        · refine .bind steady_now fun _ => .bind (steady_advance hl.1 ?_) fun _ =>
            steady_enqueue hl.2
          refine allowed_unknown (List.mem_cons_of_mem _ hs) ?_ ?_
          · simp [Quiet, Assign.ofSubmission, Assign.ofIdentity]
          · simp [Silent, Assign.ofOutput]
      · exact .bind (steady_apply rfl rfl) fun _ => steady_reschedule

theorem steady_handleRunning {task : AsyncTask} {t' : ResolvedTemplate} {elapsed : Seconds}
    {snapshot : Option Json} {native : String} (hl : l.atRest)
    (hs : task.status ∉ businessTerminal) (ht : GoesBy C t l t') (hr : Reads t' snapshot native) :
    Steady (discipline C t) (handleRunning task elapsed snapshot native) l := by
  refine .bind (steady_ask rfl) fun _ => .bind steady_nowPlus fun _ =>
    .bind (steady_apply rfl ⟨⟨_, rfl, hs⟩, ?_⟩) fun _ => .ite (fun _ => .pure _) fun _ => ?_
  · rintro _ ⟨⟩
    exact ⟨t', ht, hr⟩
  · refine .bind (steady_advance hl.1 ⟨?_, ?_⟩) fun _ => .pure _
    · simp [Quiet, Assign.ofSubmission, Assign.ofIdentity]
    · simp [Silent, Assign.ofOutput]

theorem steady_handleSucceeded {task : AsyncTask} {t' : ResolvedTemplate}
    {snapshot : Option Json} {native : String} {result : UpstreamCallResult} (hl : l.atRest) :
    Steady (discipline C t) (handleSucceeded C task t' snapshot native result) l := by
  refine .bind (steady_raiseIn _) fun _ => .bind steady_now fun _ =>
    .bind (steady_advance hl.1 ?_) fun _ =>
      .ite (fun _ => steady_finalizeSuccess hl.2) fun _ => .pure _
  simp [AllowedAdvance, Quiet, Assign.ofSubmission, Assign.ofIdentity]

theorem steady_handleExpired {task : AsyncTask} {snapshot : Option Json} {native : String}
    (hl : l.atRest) : Steady (discipline C t) (handleExpired task snapshot native) l := by
  refine .bind steady_now fun _ => steady_advanceAndFinalize hl.1 ?_
  simp [AllowedAdvance, Quiet, Assign.ofSubmission, Assign.ofIdentity]

theorem steady_handleFailed {task : AsyncTask} {t' : ResolvedTemplate} {strategy : Strategy}
    {snapshot : Option Json} {native : String} (hl : l.atRest) (ht : GoesBy C t l t')
    (hm : t'.mapsStatus native = some failed) (hr : Reads t' snapshot native)
    (hd : Documented t' snapshot) :
    Steady (discipline C t) (handleFailed task strategy snapshot native) l := by
  refine .ite (fun _ => ?_) fun _ => ?_
  · refine .bind steady_now fun _ => .bind steady_backoff fun _ => .bind steady_nowPlus fun _ =>
      .bind (steady_advance hl.1 ⟨?_, snapshot, some native, fun _ => rfl, ?_⟩) fun _ =>
        .ite (fun _ => steady_audit) fun _ => .pure _
    · simp [Quiet, Assign.ofSubmission, Assign.ofIdentity]
    · rintro _ ⟨⟩
      exact ⟨⟨t', ht, hm⟩, t', ht, hr⟩
  · refine .bind steady_now fun _ => steady_advanceAndFinalize hl.1
      ⟨?_, .inr ⟨snapshot, some native, fun _ => rfl, t', ht, hd⟩⟩
    simp [Quiet, Assign.ofSubmission, Assign.ofIdentity]

/-- A terminal state an upstream status means is one of three. -/
theorem mapsStatus_cases {t' : ResolvedTemplate} {native : String} {s : TaskStatus}
    (h : t'.mapsStatus native = some s) : s = succeeded ∨ s = timeout ∨ s = failed := by
  unfold ResolvedTemplate.mapsStatus at h
  split_ifs at h <;> simp_all

theorem steady_handlePolled {task : AsyncTask} {t' : ResolvedTemplate} {strategy : Strategy}
    {elapsed : Seconds} {result : UpstreamCallResult} (hl : l.atRest)
    (hs : task.status ∉ businessTerminal) (ht : GoesBy C t l t') :
    Steady (discipline C t) (handlePolled C task t' strategy elapsed result) l := by
  refine .bind steady_noteChannelHealthy fun _ => ?_
  refine .bind_ofExcept fun found hv => ?_
  cases found with
  | none => exact steady_enterPollUnrecognized hl hs
  | some v =>
      have hv' := lift_eq_ok hv
      refine .bind_ofExcept fun snapshot hsnap => ?_
      have hr := reads_snapshotWithStatus hsnap
      have hd := documented_snapshotWithStatus hv' hsnap
      cases hm : t'.mapsStatus (C.pyStr v) with
      | none => exact steady_handleRunning hl hs ht hr
      | some mapped =>
          rcases mapsStatus_cases hm with rfl | rfl | rfl
          · exact steady_handleSucceeded hl
          · exact steady_handleExpired hl
          · exact steady_handleFailed hl ht hm hr hd

theorem steady_handlePollResult {task : AsyncTask} {t' : ResolvedTemplate} {strategy : Strategy}
    {result : UpstreamCallResult} (hl : l.atRest) (hs : task.status ∉ businessTerminal)
    (he : result.ok = false → task.status ∈ [upstreamSubmitted, inProgress, pollUnrecognized])
    (ht : GoesBy C t l t') :
    Steady (discipline C t) (handlePollResult C task t' strategy result) l :=
  .bind steady_now fun _ => .ite (fun _ => steady_handlePolled hl hs ht) fun hok =>
    steady_handlePollError hl (he (by simpa using hok))

/-! ### A handler with a submission of its own -/

/-- `p` keeps to the discipline, and leaves nothing under way or due where it returns. -/
def Rests {α : Type} (C : Container) (t : ResolvedTemplate) (p : Handler α) (l : Local) : Prop :=
  Leads (discipline C t) p l fun _ l' => l'.atRest

theorem Rests.follows {p : Handler Unit} (h : Rests C t p l) : Follows (discipline C t) p l :=
  h.mono fun _ _ hl => hl.2

theorem rests_of_steady {α : Type} {p : Handler α} (hl : l.atRest)
    (h : Steady (discipline C t) p l) : Rests C t p l :=
  .of_steady h fun _ => hl

/-- The handler holds the intent, or the answer to its create call. -/
def Local.holds (l : Local) : Prop := l.stage = .claimed ∨ ∃ r, l.stage = .created r

theorem atRest_spent : ({ l with stage := .spent } : Local).atRest := ⟨id, by simp⟩

theorem leads_apply {α : Type} {op : DaoOp} {also : Option Message} {f : Bool → Handler α}
    {Φ : α → Local → Prop} (ha : AllowedWrite C t l op)
    (hf : ∀ b, Leads (discipline C t) (f b) (l.afterWrite b op) Φ) :
    Leads (discipline C t) ((ask (.apply op also)).bind f) l Φ :=
  .bind (.perform ha hf)

/-- A handler that ends its submission. -/
theorem rests_advance {α : Type} {dst : TaskStatus} {expected : Option (List TaskStatus)}
    {values : List Assign} {f : Bool → Handler α} (hs : l.holds)
    (ha : AllowedAdvance C t l dst expected values)
    (hf : ∀ b, Rests C t (f b) { l with stage := .spent }) :
    Rests C t ((applyOp (.advance dst expected values)).bind f) l := by
  refine leads_apply ha fun b => ?_
  have hn : l.afterWrite b (.advance dst expected values) = { l with stage := .spent } := by
    rcases hs with hs | ⟨r, hs⟩ <;> simp [Local.afterWrite, hs]
  rw [hn]
  exact hf b

theorem rests_submissionDead {task : AsyncTask} {code : ErrorCode} {message : Option String}
    {retryable : Bool} (hs : l.holds) :
    Rests C t (submissionDead task code message retryable) l := by
  refine .bind_steady steady_now fun now => rests_advance hs ⟨?_, .inl ?_⟩ fun _ =>
    rests_of_steady atRest_spent steady_finalizeTerminal
  · simp [Quiet, deadValues, Assign.ofSubmission, Assign.ofIdentity]
  · simp [Silent, deadValues, Assign.ofOutput]

theorem rests_enterUnknown {code : ErrorCode} {message : Option String} {f : Bool → Handler Unit}
    (hs : ∃ r, l.stage = .created r) (hf : ∀ b, Rests C t (f b) { l with stage := .spent }) :
    Rests C t ((applyOp (.enterUnknown code message none)).bind f) l :=
  leads_apply ⟨rfl, hs⟩ hf

theorem rests_release {α : Type} {expected : List TaskStatus} {nextPollAt : Time} {decrement : Bool}
    {code : Option ErrorCode} {message : Option String} {retryable : Option Bool}
    {deadline : Option Time} {f : Bool → Handler α} (ha : AllowedRelease l expected decrement)
    (hf : ∀ b, Rests C t (f b) { l with stage := .spent }) :
    Rests C t ((applyOp (.releaseSubmitIntent expected nextPollAt decrement code message
      retryable none deadline)).bind f) l :=
  leads_apply ⟨rfl, ha⟩ hf

theorem rests_releaseForUpstreamWait {task : AsyncTask} {delay : PyFloat} {code : ErrorCode}
    {message : Option String} {f : Bool → Handler Unit}
    (ha : AllowedRelease l submitSources true)
    (hf : ∀ b, Rests C t (f b) { l with stage := .spent }) :
    Rests C t ((releaseForUpstreamWait C task submitSources delay code message true).bind f) l := by
  refine .bind (.bind_steady steady_nowPlus fun _ => leads_apply ⟨rfl, ha⟩ fun b => ?_)
  exact .ite (fun _ => .bind_steady steady_noteAttribute fun _ => hf _) fun _ => hf _

theorem rests_handleCreated {task : AsyncTask} {t' : ResolvedTemplate}
    {result : UpstreamCallResult} {r : Except HttpxError HttpResponse}
    (hs : l.stage = .created r) (hc : createClass r = none) (hl : l.loaded = some task) :
    Rests C t (handleCreated C task t' result) l := by
  refine .bind_ofExcept fun found _ => ?_
  cases found with
  | none =>
      exact rests_enterUnknown ⟨r, hs⟩ fun _ =>
        rests_of_steady atRest_spent (steady_enqueue (by simp))
  | some upstreamId =>
      refine .bind_ofExcept fun rawStatus _ => .bind_steady (steady_ask rfl) fun _ =>
        .bind_steady steady_now fun submittedAt => .bind_ofExcept fun nextPollAt _ =>
          leads_apply ⟨rfl, r, hs, hc⟩ fun ok => ?_
      cases ok with
      | false => exact atRest_spent
      | true =>
          have polled : Rests C t (do
              noteChannelHealthy C task.channel
              enqueue (pollQueue t'.pool) "poll_upstream") { l with stage := .spent } :=
            .bind_steady steady_noteChannelHealthy fun _ =>
              rests_of_steady atRest_spent (steady_enqueue (by simp))
          have rest : Rests C t (do
              if task.cancelRequested then enqueue "cancel:default" "cancel_upstream" else pure ()
              noteChannelHealthy C task.channel
              enqueue (pollQueue t'.pool) "poll_upstream")
              (l.afterWrite true (.markSubmitted (C.pyStr upstreamId) (rawStatus.map C.pyStr) none
                nextPollAt none)) := by
            by_cases hq : task.cancelRequested = true
            · simp only [Local.afterWrite, hl, hq, Option.any_some, if_true]
              exact .bind (.perform (by trivial) fun _ => polled)
            · simp only [Local.afterWrite, hl, hq, Option.any_some]
              exact polled
          refine .bind_steady steady_noteAttribute fun _ => ?_
          cases result.response with
          | none => exact rest
          | some response => exact .bind_steady (steady_ask rfl) fun _ => rest

/-- What the client made of the answer to a create call. -/
structure OfCreate (result : UpstreamCallResult) (r : Except HttpxError HttpResponse) : Prop where
  outcome : result.outcome ≠ .ssrfRejected
  ok : result.ok = (createClass r).isNone
  classification : result.classification = createClass r

theorem ofCreate_ofHttpxError (exc : HttpxError) :
    OfCreate (UpstreamClient.ofHttpxError .submit exc) (.error exc) := by
  unfold UpstreamClient.ofHttpxError
  constructor
  · simp only
    split <;> simp
  · simp only [UpstreamCallResult.ok]
    split <;> simp [createClass]
  · rfl

theorem ofCreate_ofResponse {secrets : List String} {now : Time} (response : HttpResponse) :
    OfCreate (UpstreamClient.ofResponse C secrets .submit now response) (.ok response) := by
  by_cases h : 200 ≤ response.statusCode ∧ response.statusCode < 300 <;>
    constructor <;>
      simp [UpstreamClient.ofResponse, UpstreamResponse.ok, UpstreamCallResult.ok, createClass, h]

/-- A create call: refused before it was sent, or sent and answered. -/
theorem leads_create {request : RenderedRequest} {bearer : Option String} {α : Type}
    {f : UpstreamCallResult → Handler α} {Φ : α → Local → Prop} (hs : l.stage = .claimed)
    (rejected : ∀ result, result.outcome = .ssrfRejected → Leads (discipline C t) (f result) l Φ)
    (answered : ∀ result r, OfCreate result r →
      Leads (discipline C t) (f result) { l with stage := .created r } Φ) :
    Leads (discipline C t) ((UpstreamClient.call C .create request .submit bearer).bind f) l Φ := by
  refine .bind (.bind_steady (steady_ask rfl) fun violation => ?_)
  cases violation with
  | some violation => exact rejected _ rfl
  | none =>
      refine .bind (.perform hs fun _ => .bind (.perform rfl fun r => ?_))
      cases r with
      | error exc => exact answered _ _ (ofCreate_ofHttpxError exc)
      | ok response => exact .bind_steady steady_now fun _ => answered _ _ (ofCreate_ofResponse _)

/-- What is left of the classes of a create call is safe to send again. -/
theorem createClass_retrySafe {r : Except HttpxError HttpResponse} {c : Classification}
    (h : createClass r = some c) (hu : c.isUnknown = false) (hr : c.errorClass ≠ .rateLimited)
    (hf : c.channelFault = false) (hd : c.errorClass ≠ .failFast) : c.errorClass = .retrySafe := by
  have cases_status : ∀ n, c = classifyStatus n .submit → c.errorClass = .retrySafe := by
    rintro n rfl
    revert hu hr hf hd
    unfold classifyStatus
    split_ifs <;> simp [Classification.isUnknown]
  cases r with
  | error exc =>
      obtain rfl : classifyException exc.kind .submit = c := Option.some.inj h
      revert hu
      cases exc.kind <;> decide
  | ok response =>
      simp only [createClass] at h
      split at h
      · cases h
      · exact cases_status _ (Option.some.inj h).symm

theorem rests_handleSubmitResult {task : AsyncTask} {t' : ResolvedTemplate} {strategy : Strategy}
    {result : UpstreamCallResult} {r : Except HttpxError HttpResponse}
    (hs : l.stage = .created r) (hr : OfCreate result r) (hl : l.loaded = some task) :
    Rests C t (handleSubmitResult C task t' strategy result) l := by
  unfold handleSubmitResult
  rw [if_neg hr.outcome, hr.ok, hr.classification]
  cases hc : createClass r with
  | none => exact rests_handleCreated hs hc hl
  | some c =>
      have release {decrement : Bool}
          (h : decrement = true ∧ c.refunds ∨ decrement = false ∧ c.errorClass = .retrySafe) :
          AllowedRelease l submitSources decrement := .inr ⟨rfl, r, c, hs, hc, h⟩
      refine .ite (fun h => absurd h (by simp)) fun _ => .ite (fun hrate => ?_) fun hrate =>
        .ite (fun hfault => ?_) fun hfault => .ite (fun _ => ?_) fun hfast =>
        .ite (fun _ => ?_) fun hu => .ite (fun _ => ?_) fun _ => ?_
      · exact .bind_steady (steady_ask rfl) fun _ => .bind_steady (steady_ask rfl) fun _ =>
          rests_releaseForUpstreamWait (release (.inl ⟨rfl, .inl hrate⟩)) fun _ => atRest_spent
      · exact .bind_steady (steady_ask rfl) fun _ => .bind_steady steady_backoff fun _ =>
          rests_releaseForUpstreamWait (release (.inl ⟨rfl, .inr hfault⟩)) fun _ =>
            .bind_steady steady_noteAttribute fun _ => rests_of_steady atRest_spent steady_audit
      · exact rests_submissionDead (.inr ⟨r, hs⟩)
      · exact rests_enterUnknown ⟨r, hs⟩ fun _ =>
          rests_of_steady atRest_spent (steady_enqueue (by simp))
      · exact rests_submissionDead (.inr ⟨r, hs⟩)
      · have hsafe := createClass_retrySafe hc (by simpa using hu) hrate (by simpa using hfault)
          hfast
        exact .bind_steady steady_backoff fun _ => .bind_steady steady_nowPlus fun _ =>
          rests_release (release (.inr ⟨rfl, hsafe⟩)) fun _ => atRest_spent

/-- The create call was refused before it was sent. -/
theorem rests_rejected {task : AsyncTask} {t' : ResolvedTemplate} {strategy : Strategy}
    {result : UpstreamCallResult} (hs : l.stage = .claimed)
    (hr : result.outcome = .ssrfRejected) :
    Rests C t (handleSubmitResult C task t' strategy result) l :=
  .ite (fun _ => rests_submissionDead (.inl hs)) fun h => absurd hr h

theorem steady_loadCreateBody {task : AsyncTask} :
    Steady (discipline C t) (loadCreateBody task) l := by
  unfold loadCreateBody
  split
  · exact .pure _
  · refine .bind (steady_ask rfl) fun found => ?_
    split <;> exact .pure _

theorem rests_submitWithSlot {task : AsyncTask} {t' : ResolvedTemplate} {strategy : Strategy}
    {bearer : String} (hs : l.stage = .free) (hl : l.loaded = some task) :
    Rests C t (submitWithSlot C task t' strategy bearer) l := by
  refine leads_apply ⟨hs, rfl⟩ fun claimed => ?_
  cases claimed with
  | false => exact ⟨by simp [Local.afterWrite, hs, Stage.underWay], by simp [Local.afterWrite, hs]⟩
  | true =>
      simp only [Local.afterWrite, if_true]
      refine .bind_steady steady_loadCreateBody fun body => ?_
      cases body with
      | none =>
          refine .bind_steady steady_now fun now => rests_advance (.inl rfl) ⟨?_, .inl ?_⟩ fun b =>
            rests_of_steady atRest_spent (.ite (fun _ => steady_finalizeTerminal) fun _ => .pure _)
          · simp [Quiet, deadValues, Assign.ofSubmission, Assign.ofIdentity]
          · simp [Silent, deadValues, Assign.ofOutput]
      | some body =>
          exact .bind_ofExcept fun request _ => leads_create rfl
            (fun result h => rests_rejected rfl h) fun result r hr =>
              rests_handleSubmitResult rfl hr hl

theorem rests_withSlot {task : AsyncTask} {body : Handler Unit} (hl : l.atRest)
    (hb : Rests C t body l) : Rests C t (withSlot C task body) l :=
  .bind_steady (steady_ask rfl) fun _ =>
    .ite (fun _ => .tryFinally (fun _ => steady_ask rfl) hb) fun _ =>
      rests_of_steady hl steady_enqueueSelfLater

theorem atRest_of_free (hs : l.stage = .free) : l.atRest := by
  simp [Local.atRest, hs, Stage.underWay]

theorem leads_getCredential {α : Type} {f : Option String → Handler α} {Φ : α → Local → Prop}
    (hf : ∀ bearer, Leads (discipline C t) (f bearer) { l with bearer := bearer } Φ) :
    Leads (discipline C t) ((ask .getCredential).bind f) l Φ :=
  .bind (.perform (by trivial) hf)

/-- The template of a task that is loaded. -/
theorem leads_template {task : AsyncTask} {α : Type} {f : ResolvedTemplate × Strategy → Handler α}
    {Φ : α → Local → Prop} (hf : ∀ t' strategy, templateOf C task = some t' →
      strategy = C.strategyFor task.channel t' → Leads (discipline C t) (f (t', strategy)) l Φ) :
    Leads (discipline C t) ((template C task).bind f) l Φ := by
  refine .bind (.bind_ofExcept fun t' ht => hf t' _ ?_ rfl)
  unfold Container.require at ht
  split at ht <;> cases ht
  exact ‹_›

theorem rests_submitLoaded {task : AsyncTask} (hs : l.stage = .free)
    (hl : l.loaded = some task) : Rests C t (submitLoaded C task) l := by
  have hr := atRest_of_free hs
  refine leads_template fun t' strategy _ _ => .bind_steady steady_pastDeadline fun overdue =>
    .ite (fun _ => ?_) fun _ => .ite (fun _ => ?_) fun _ => leads_getCredential fun bearer => ?_
  · refine rests_of_steady hr (steady_advanceAndFinalize hr.1 ?_)
    simp [AllowedAdvance, Quiet, Assign.ofSubmission, Assign.ofIdentity]
  · refine rests_of_steady hr (steady_advanceAndFinalize hr.1 ?_)
    simp [AllowedAdvance, Quiet]
  · split
    · refine rests_of_steady hr (.bind steady_now fun _ => .bind (steady_advance hr.1 ⟨?_, .inl ?_⟩)
        fun _ => steady_finalizeTerminal)
      · simp [Quiet, deadValues, Assign.ofSubmission, Assign.ofIdentity]
      · simp [Silent, deadValues, Assign.ofOutput]
    · exact rests_withSlot hr (rests_submitWithSlot hs hl)

/-- A handler that begins with the task. -/
theorem leads_load {α : Type} {f : Option AsyncTask → Handler α} {Φ : α → Local → Prop}
    (gone : Leads (discipline C t) (f none) l Φ)
    (found : ∀ task, Leads (discipline C t) (f (some task)) { l with seen := task :: l.seen } Φ) :
    Leads (discipline C t) (loadTask.bind f) l Φ :=
  .bind (.perform (by trivial) fun (row : Option AsyncTask) => by
    cases row with
    | none => exact gone
    | some task => exact found task)

theorem rests_submitUpstream (hs : l.stage = .free) : Rests C t (submitUpstream C) l :=
  leads_load (atRest_of_free hs) fun _ =>
    .ite (fun _ => rests_submitLoaded hs rfl) fun _ => atRest_of_free hs

/-! ### The inline submission -/

theorem leads_mustReload {α : Type} {f : AsyncTask → Handler α} {Φ : α → Local → Prop}
    (hf : ∀ task, Leads (discipline C t) (f task) { l with seen := task :: l.seen } Φ) :
    Leads (discipline C t) (mustReload.bind f) l Φ :=
  .bind (leads_load (.raise _) fun task => hf task)

theorem rests_inlineAnswer {req : AcceptedRequest} {t' : ResolvedTemplate}
    {result : UpstreamCallResult} (hl : l.atRest) : Rests C t (inlineAnswer req t' result) l := by
  refine leads_mustReload fun task => .ite (fun _ => ?_) fun _ => .ite (fun _ => ?_) fun _ => ?_
  · exact .bind_steady (steady_ask rfl) fun _ => .bind_steady (steady_enqueue hl.2) fun _ => hl
  · exact .bind_steady (steady_ask rfl) fun _ => hl
  · exact .bind_steady (steady_ask rfl) fun _ => hl

theorem rests_inlineCall {req : AcceptedRequest} {t' : ResolvedTemplate} (hs : l.stage = .claimed) :
    Rests C t (inlineCall C req t') l := by
  have created : ∀ (row : Option AsyncTask) (l : Local), l.stage = .claimed → Rests C t (do
      let request ←
        raiseIn (renderCreate C.joinUrl t' req.body (callbackUrl C t' (row.bind (·.callbackToken))))
      let result ← UpstreamClient.call C .create request .submit req.bearer
      let task ← mustReload
      handleSubmitResult C task t' (C.strategyFor req.channel t') result
      pure result) l := fun row l hs =>
    .bind_ofExcept fun request _ => leads_create hs
      (fun result h => leads_mustReload fun task => .bind <| .mono (rests_rejected hs h) fun _ _ hl => hl)
      fun result r hr => leads_mustReload fun task =>
        .bind <| .mono (rests_handleSubmitResult rfl hr rfl) fun _ _ hl => hl
  exact leads_load (created none l hs) fun task => created (some task) _ hs

theorem rests_inlineSubmit {req : AcceptedRequest} {t' : ResolvedTemplate}
    (hs : l.stage = .free) : Rests C t (inlineSubmit C req t') l := by
  refine leads_apply ⟨hs, rfl⟩ fun claimed => ?_
  cases claimed with
  | false =>
      simp only [Local.afterWrite]
      exact .bind_steady (steady_enqueue (by simp [hs])) fun _ => atRest_of_free hs
  | true =>
      simp only [Local.afterWrite, if_true]
      refine .bind_steady (steady_ask rfl) fun _ => .ite (fun _ => ?_) fun _ => ?_
      · refine .bind (.mono (.tryFinally (fun _ => steady_ask rfl) (rests_inlineCall rfl)) ?_)
        exact fun _ _ hl => rests_inlineAnswer hl
      · exact .bind_steady steady_now fun _ => rests_release (.inl ⟨rfl, rfl, rfl⟩) fun _ =>
          .bind_steady (steady_enqueue (by simp)) fun _ => .raise _

/-! ### The confirmation -/

/-- The confirmation does not read the clock. -/
theorem confirmationOf_ofResponse {t' : ResolvedTemplate} {secrets : List String} {now : Time}
    {response : HttpResponse} :
    confirmationOf C t' (UpstreamClient.ofResponse C secrets .poll now response) =
      confirmationOf C t' (UpstreamClient.ofResponse C secrets .poll 0 response) := by
  unfold UpstreamClient.ofResponse
  simp only
  split <;> rfl

theorem leads_recvConfirm {task : AsyncTask} {α : Type}
    {f : Except HttpxError HttpResponse → Handler α} {Φ : α → Local → Prop}
    (hs : l.stage = .asking) (hl : l.loaded = some task)
    (hf : ∀ r, Leads (discipline C t) (f r) { l with stage := .told task l.bearer r } Φ) :
    Leads (discipline C t) ((ask (.recv .confirm)).bind f) l Φ := by
  refine .bind (.perform hs fun r => ?_)
  have hn : l.next (.recv .confirm) (.ok r) = { l with stage := .told task l.bearer r } := by
    simp [Local.next, hl]
  show Leads (discipline C t) (f r) (l.next (.recv .confirm) (.ok r)) Φ
  rw [hn]
  exact hf r

theorem leads_confirm {task : AsyncTask} {t' : ResolvedTemplate} {α : Type}
    {f : Confirmation → Handler α} {Φ : α → Local → Prop} (hs : l.stage = .free)
    (hl : l.loaded = some task) (hu : task.status = submitUnknown)
    (ht : templateOf C task = some t')
    (open_ : ∀ c, c.confirmed = false → Leads (discipline C t) (f c) l Φ)
    (told : ∀ r c, verdict C t' l.bearer r = .ok c →
      Leads (discipline C t) (f c) { l with stage := .told task l.bearer r } Φ) :
    Leads (discipline C t) ((confirm C task t' l.bearer).bind f) l Φ := by
  refine .bind ?_
  unfold confirm
  split
  · rename_i hq _
    refine .bind_ofExcept fun request _ => .bind (.bind_steady (steady_ask rfl) fun violation => ?_)
    cases violation with
    | some violation => exact .ofExcept fun c hc => open_ c (by cases hc; rfl)
    | none =>
        refine .bind (.perform ⟨hs, task, t', hl, hu, ht, hq⟩ fun _ =>
          leads_recvConfirm (l := { l with stage := .asking }) rfl hl fun r => ?_)
        cases r with
        | error exc => exact .ofExcept fun c hc => told (.error exc) c hc
        | ok response =>
            refine .bind_steady steady_now fun now => .ofExcept fun c hc => told (.ok response) c ?_
            rw [confirmationOf_ofResponse] at hc
            exact hc
  · split <;> exact open_ _ rfl
  · exact open_ _ rfl

theorem rests_settleConfirmation {task : AsyncTask} {t' : ResolvedTemplate} {c : Confirmation}
    (hl : l.atRest) (hc : c.confirmed = true → Concluded C l c) :
    Rests C t (settleConfirmation task t' c) l := by
  refine rests_of_steady hl ?_
  unfold settleConfirmation
  split
  · rename_i upstreamId hconf hid
    have hid := nonEmpty_eq_some.mp hid
    refine .bind steady_nowPlus fun _ => .bind
      (steady_apply rfl ⟨rfl, rfl, .inr ⟨rfl, ?_, .inr ⟨c, hc hconf, hid.1⟩⟩⟩) fun _ =>
        steady_enqueue hl.2
    rw [nonEmpty_eq_some.mpr ⟨rfl, hid.2⟩]
    rfl
  · rename_i hconf hid
    refine .bind steady_now fun now => .bind
      (steady_advance hl.1 ⟨rfl, ⟨now, rfl⟩, c, hc hconf, hid⟩) fun _ =>
        .ite (fun _ => steady_enqueueAll hl.2) fun _ => .pure _
  · exact .bind steady_backoff fun _ => .bind steady_nowPlus fun _ =>
      .bind (steady_apply rfl ⟨rfl, rfl, .inl ⟨rfl, rfl⟩⟩) fun _ => .pure _

theorem steady_awaitHuman {task : AsyncTask} {code : ErrorCode} {message : String}
    (hl : l.atRest) : Steady (discipline C t) (awaitHuman task code message) l := by
  refine steady_advanceAndFinalize hl.1 ⟨?_, ?_⟩
  · simp [Quiet, Assign.ofSubmission, Assign.ofIdentity]
  · simp [Silent, Assign.ofOutput]

theorem rests_compensateLoaded {task : AsyncTask} (hs : l.stage = .free)
    (hl : l.loaded = some task) (hu : task.status = submitUnknown) :
    Rests C t (compensateLoaded C task) l := by
  have hr := atRest_of_free hs
  refine leads_template fun t' strategy ht _ => .ite
    (fun _ => rests_of_steady hr (steady_awaitHuman hr)) fun _ => ?_
  split
  · rename_i upstreamId hid
    refine rests_of_steady hr (.bind steady_now fun _ => .bind
      (steady_apply rfl ⟨rfl, rfl, .inr ⟨rfl, ?_, .inl ⟨task, hl, hs, ?_⟩⟩⟩) fun _ =>
        .ite (fun _ => steady_enqueue hr.2) fun _ => .pure _)
    · rw [nonEmpty_eq_some.mpr ⟨rfl, (nonEmpty_eq_some.mp hid).2⟩]
      rfl
    · rw [(nonEmpty_eq_some.mp hid).1]
  · refine .bind_steady steady_now fun _ => .ite
      (fun _ => rests_of_steady hr (steady_awaitHuman hr)) fun _ => .ite
        (fun _ => rests_of_steady hr (steady_awaitHuman hr)) fun _ =>
          leads_getCredential fun bearer => ?_
    refine leads_confirm (l := { l with bearer := bearer }) hs hl hu ht (fun c hc => ?_)
      fun r c hv => ?_
    · exact rests_settleConfirmation hr fun h => absurd (hc.symm.trans h) (by simp)
    · exact rests_settleConfirmation ⟨id, by simp⟩ fun h =>
        ⟨task, bearer, r, t', rfl, ht, hv, h⟩

theorem rests_compensateOrphan (hs : l.stage = .free) : Rests C t (compensateOrphan C) l :=
  leads_load (atRest_of_free hs) fun _ =>
    .ite (fun hu => rests_compensateLoaded hs rfl hu) fun _ => atRest_of_free hs

/-! ### The handlers that never submit -/

theorem rests_pollLoaded {task : AsyncTask} (hs : l.stage = .free) (hl : l.loaded = some task)
    (hp : task.status ∈ [upstreamSubmitted, inProgress, pollUnrecognized]) :
    Rests C t (pollLoaded C task) l := by
  have hr := atRest_of_free hs
  have hterm : task.status ∉ businessTerminal := by
    revert hp
    cases task.status <;> decide
  refine leads_template fun t' strategy ht _ => .bind_steady steady_pastDeadline fun _ =>
    .ite (fun _ => ?_) fun _ => .bind_steady (steady_ask rfl) fun _ =>
      .ite (fun _ => rests_of_steady hr steady_enqueueSelfLater) fun _ => ?_
  · refine .bind_steady steady_now fun _ => rests_of_steady hr (steady_advanceAndFinalize hr.1 ?_)
    simp [AllowedAdvance, Quiet, Assign.ofSubmission, Assign.ofIdentity]
  · split
    · refine rests_of_steady hr (.bind steady_now fun _ => .bind
        (steady_advance hr.1 (allowed_unknown (List.mem_cons_of_mem _ hp) ?_ ?_)) fun _ => .pure _)
      · simp [Quiet, Assign.ofSubmission, Assign.ofIdentity]
      · simp [Silent, Assign.ofOutput]
    · have hseen : task ∈ l.seen := List.mem_of_mem_head? hl
      exact leads_getCredential fun bearer => rests_withSlot hr <| .bind_steady steady_pollOnce
        fun result => rests_of_steady hr
          (steady_handlePollResult hr hterm (fun _ => hp) (.inr ⟨task, hseen, ht⟩))

theorem rests_pollUpstream (hs : l.stage = .free) : Rests C t (pollUpstream C) l := by
  have hr := atRest_of_free hs
  exact leads_load hr fun task => .ite
    (fun _ => rests_of_steady (atRest_of_free hs) (steady_enqueue (by simp [hs]))) fun _ =>
      .ite (fun hp => rests_pollLoaded hs rfl hp) fun _ => atRest_of_free hs

theorem steady_cancelDegraded {task : AsyncTask} (hl : l.atRest) :
    Steady (discipline C t) (cancelDegraded task) l := by
  refine .bind steady_noteAttribute fun _ => .ite (fun _ => .bind steady_now fun _ =>
    .bind (steady_advance hl.1 ⟨?_, ?_⟩) fun _ => steady_finalizeTerminal) fun _ =>
      steady_enqueueSelfLater
  · simp [Quiet, Assign.ofSubmission, Assign.ofIdentity]
  · simp [Assign.ofOutput]

theorem rests_cancelCall {task : AsyncTask} {t' : ResolvedTemplate} {upstreamTaskId : String}
    (hl : l.atRest) : Rests C t (cancelCall C task t' upstreamTaskId) l := by
  refine leads_getCredential fun bearer => .bind_ofExcept fun request _ =>
    .bind_steady (steady_call (by decide)) fun result => .ite (fun _ => ?_) fun _ => ?_
  · refine .bind_steady steady_now fun _ => rests_of_steady hl
      (steady_advanceAndFinalize hl.1 ⟨?_, ?_⟩)
    · simp [Quiet, Assign.ofSubmission, Assign.ofIdentity]
    · simp [Assign.ofOutput]
  · exact .bind_steady steady_noteAttribute fun _ => .bind_steady steady_backoff fun _ =>
      rests_of_steady hl steady_enqueueSelfLater

theorem rests_cancelLoaded {task : AsyncTask} (hl : l.atRest) :
    Rests C t (cancelLoaded C task) l := by
  refine leads_template fun t' _ _ _ => .ite
    (fun _ => rests_of_steady hl (steady_cancelDegraded hl)) fun _ => ?_
  split
  · refine .bind_steady steady_now fun _ => rests_of_steady hl
      (steady_advanceAndFinalize hl.1 ⟨?_, ?_⟩)
    · simp [Quiet, Assign.ofSubmission, Assign.ofIdentity]
    · simp [Assign.ofOutput]
  · exact rests_cancelCall hl

theorem rests_cancelUpstream (hs : l.stage = .free) : Rests C t (cancelUpstream C) l :=
  leads_load (atRest_of_free hs) fun _ => .ite (fun _ => atRest_of_free hs) fun _ =>
    rests_cancelLoaded (atRest_of_free hs)

theorem rests_finalizeTask (hl : l.atRest) : Rests C t (finalizeTask C) l := by
  refine leads_load hl fun task => .ite (fun _ => leads_template fun t' _ _ _ => ?_) fun _ => hl
  exact .ite (fun _ => .bind_steady (steady_enqueueAll hl.2) fun _ =>
    rests_of_steady hl (steady_ask rfl)) fun _ => rests_of_steady hl (steady_ask rfl)

theorem steady_fetchResult {url : String} : Steady (discipline C t) (fetchResult C url) l := by
  refine .bind (steady_ask rfl) fun violation => ?_
  cases violation with
  | some violation => exact .pure _
  | none =>
      refine .bind (steady_ask rfl) fun _ => .bind (steady_ask rfl) fun r => ?_
      cases r with
      | error exc => exact .pure _
      | ok response => exact .ite (fun _ => .pure _) fun _ => .ite (fun _ => .pure _) fun _ => .pure _

theorem steady_transferFailed {task : AsyncTask} {detail : String} {refs : Json.Fields}
    {note : String} : Steady (discipline C t) (transferFailed task detail refs note) l :=
  .bind (steady_apply rfl trivial) fun _ => steady_audit

theorem rests_transfer {task : AsyncTask} {attempt : ℤ} {url : String} (hl : l.atRest) :
    Rests C t (transfer C task attempt url) l := by
  refine leads_getCredential fun bearer => .bind_steady steady_fetchResult fun fetched =>
    rests_of_steady hl ?_
  split
  · exact .bind (steady_ask rfl) fun _ => .bind (steady_apply rfl trivial) fun _ =>
      .ite (fun _ => steady_ask rfl) fun _ => .pure _
  · exact .ite (fun _ => .bind steady_backoff fun _ => .bind steady_nowPlus fun _ =>
      .bind (steady_apply rfl trivial) fun _ => .pure _) fun _ => steady_transferFailed

theorem rests_storeResult {attempt : ℤ} (hs : l.stage = .free) :
    Rests C t (storeResult C attempt) l := by
  have hr := atRest_of_free hs
  refine leads_load hr fun task => .ite (fun _ => leads_template fun t' _ _ _ =>
    .ite (fun _ => atRest_of_free hs) fun _ => .bind_ofExcept fun found _ => ?_) fun _ =>
      atRest_of_free hs
  split
  · exact rests_transfer (atRest_of_free hs)
  · exact rests_of_steady (atRest_of_free hs) steady_transferFailed

/-! ### The routes -/

theorem rests_refresh {task : AsyncTask} {t' : ResolvedTemplate} {strategy : Strategy}
    {bearer : Option String} (hl : l.atRest) (hs : task.status ∉ businessTerminal)
    (ht : GoesBy C t l t') : Rests C t (refresh C task t' strategy bearer) l := by
  refine .tryCatch (I := Local.atRest) ?_ fun _ _ hl' => hl'
  refine wp_bind.mpr (steady_pollOnce.wp fun r => ?_)
  cases r with
  | error x => exact hl
  | ok result =>
      refine wp_ite.mpr ⟨fun hok => ?_, fun _ => hl⟩
      refine wp_bind.mpr ((steady_handlePollResult hl hs (fun h => ?_) ht).wp fun r => ?_)
      · simp [hok] at h
      · cases r with
        | error x => exact hl
        | ok _ =>
            refine wp_bind.mpr (wp_perform.mpr ⟨trivial, fun r => ?_⟩)
            cases r <;> exact hl

theorem leads_findTask {channel identifier : String} {α : Type} {f : Option AsyncTask → Handler α}
    {Φ : α → Local → Prop} (gone : Leads (discipline C t) (f none) l Φ)
    (found : ∀ task, Leads (discipline C t) (f (some task)) { l with seen := task :: l.seen } Φ) :
    Leads (discipline C t) ((ask (.findTask channel identifier)).bind f) l Φ :=
  .bind (.perform (by trivial) fun (row : Option AsyncTask) => by
    cases row with
    | none => exact gone
    | some task => exact found task)

theorem steady_presignedResultUrl {task : AsyncTask} {t' : ResolvedTemplate} :
    Steady (discipline C t) (presignedResultUrl C task t') l := by
  unfold presignedResultUrl
  split
  · exact .ite (fun _ => steady_ask rfl) fun _ => .pure _
  · exact .pure _

theorem steady_snapshotStale {task : AsyncTask} {minRefresh : ℚ} :
    Steady (discipline C t) (snapshotStale task minRefresh) l := by
  unfold snapshotStale
  split
  · exact .bind steady_now fun _ => .pure _
  · exact .pure _

theorem rests_handleQuery {auth : AuthContext} {identifier : String} (hs : l.stage = .free) :
    Rests C t (handleQuery C auth t identifier) l := by
  have shown : ∀ (task : AsyncTask) (l : Local), l.atRest → Rests C t (do
      let resultUrl ← presignedResultUrl C task t
      let native ← raiseIn (buildNativeQueryResponse C task t resultUrl)
      pure ({ status := 200, body := some native
              headers := responseHeaders task
                ((C.strategyFor auth.channel t).minRefreshInterval.getD 3) } : HttpAnswer)) l :=
    fun task l hl => rests_of_steady hl <|
      .bind steady_presignedResultUrl fun _ => .bind (steady_raiseIn _) fun _ => .pure _
  refine leads_findTask (.raise _) fun task => .bind_ofExcept fun _ _ => ?_
  have hr : ({ l with seen := task :: l.seen } : Local).atRest := atRest_of_free hs
  refine .ite (fun _ => shown task _ hr) fun hq => .bind_steady steady_snapshotStale fun _ =>
    .ite (fun _ => ?_) fun _ => shown task _ hr
  have hterm : task.status ∉ businessTerminal := fun h => hq (.inl (by simpa [isBusinessTerminal]))
  exact .bind (.mono (rests_refresh hr hterm (.inl rfl)) fun task' _ hl => shown task' _ hl)

theorem rests_handleCancel {auth : AuthContext} {identifier : String} (hs : l.stage = .free) :
    Rests C t (handleCancel C auth t identifier) l := by
  refine leads_findTask (.raise _) fun task => .bind_ofExcept fun _ _ => ?_
  have hr : ({ l with seen := task :: l.seen } : Local).atRest := atRest_of_free hs
  refine .ite (fun _ => hr) fun _ => .bind_steady (steady_apply rfl trivial) fun _ =>
    .ite (fun _ => ?_) fun _ => .raise _
  refine .bind_steady (steady_enqueue hr.2) fun _ => .bind_steady steady_audit fun _ => ?_
  exact leads_load hr fun _ => hr

theorem steady_callbackAdvance {task : AsyncTask} {t' : ResolvedTemplate} {mapped : TaskStatus}
    {snapshot : Json} {rawStatus : Option String} (hl : l.atRest) (ht : GoesBy C t l t')
    (hm : t'.mapsStatus (rawStatus.getD "") = some mapped)
    (hr : ∀ n, rawStatus = some n → ∃ t'', GoesBy C t l t'' ∧ Reads t'' (some snapshot) n) :
    Steady (discipline C t) (callbackAdvance task mapped snapshot rawStatus) l := by
  refine .bind steady_now fun now => ?_
  rcases mapsStatus_cases hm with rfl | rfl | rfl
  · refine steady_advance hl.1 ?_
    simp [AllowedAdvance, Quiet, Assign.ofSubmission, Assign.ofIdentity]
  · refine steady_advance hl.1 ?_
    simp [AllowedAdvance, Quiet, Assign.ofSubmission, Assign.ofIdentity]
  · refine steady_advance hl.1 ⟨?_, some snapshot, rawStatus, fun _ => rfl, ?_⟩
    · simp [Quiet, Assign.ofSubmission, Assign.ofIdentity]
    · rintro n rfl
      exact ⟨⟨t', ht, hm⟩, hr n rfl⟩

theorem rests_applyCallbackTo {task : AsyncTask} {t' : ResolvedTemplate} {event : CallbackEvent}
    (hl : l.atRest) (hs : task.status ∉ businessTerminal) (ht : GoesBy C t l t')
    (hr : ∀ n, event.rawStatus = some n →
      ∃ t'', GoesBy C t l t'' ∧ Reads t'' (some (callbackSnapshot event.payload)) n) :
    Rests C t (applyCallbackTo C task t' event) l := by
  unfold applyCallbackTo
  cases hm : t'.mapsStatus (event.rawStatus.getD "") with
  | none =>
      exact rests_of_steady hl (.bind (steady_apply rfl ⟨⟨_, rfl, hs⟩, hr⟩) fun _ => .pure _)
  | some mapped =>
      refine .ite (fun _ => ?_) fun _ => .bind_steady (steady_callbackAdvance hl ht hm hr) fun _ =>
        .ite (fun _ => .bind_steady steady_audit fun _ => rests_finalizeTask hl) fun _ => hl
      exact rests_of_steady hl (.bind steady_noteAttribute fun _ => .bind steady_now fun _ =>
        .bind (steady_apply rfl trivial) fun _ => steady_audit)

theorem rests_applyCallback {taskId : String} {event : CallbackEvent} (hl : l.atRest)
    (hr : ∀ n, event.rawStatus = some n →
      ∃ t'', GoesBy C t l t'' ∧ Reads t'' (some (callbackSnapshot event.payload)) n) :
    Rests C t (applyCallback C taskId event) l := by
  refine leads_load (rests_of_steady hl steady_audit) fun task => .ite
    (fun _ => rests_of_steady hl steady_audit) fun hq => ?_
  have hterm : task.status ∉ businessTerminal := fun h => hq (by simpa [isBusinessTerminal])
  have grown : ∀ t'', GoesBy C t l t'' → GoesBy C t { l with seen := task :: l.seen } t'' :=
    fun t'' h => h.imp id fun ⟨row, hrow, h⟩ => ⟨row, List.mem_cons_of_mem _ hrow, h⟩
  split
  · exact hl
  · rename_i t' ht
    exact rests_applyCallbackTo hl hterm (.inr ⟨task, List.mem_cons_self, ht⟩) fun n hn =>
      (hr n hn).imp fun t'' h => ⟨grown t'' h.1, h.2⟩

theorem rests_receiveCallback {payload : Json} (hs : l.stage = .free) :
    Rests C t (receiveCallback C payload) l := by
  have hl := atRest_of_free hs
  refine leads_load hl fun task => ?_
  have recorded : ∀ rawStatus : Option String, (∀ n, rawStatus = some n →
      ∃ t', GoesBy C t { l with seen := task :: l.seen } t' ∧
        Reads t' (some (callbackSnapshot payload)) n) → Rests C t (do
      let fresh : Bool ← ask (.insertCallbackEvent rawStatus payload)
      if fresh then applyCallback C task.taskId ⟨payload, rawStatus⟩ else pure ())
      { l with seen := task :: l.seen } := fun rawStatus hr =>
    .bind_steady (steady_ask rfl) fun _ =>
      .ite (fun _ => rests_applyCallback (atRest_of_free hs) hr) fun _ => atRest_of_free hs
  dsimp only
  cases ht : C.registry task.templateAlias task.templateVersion with
  | none => exact recorded none (by simp)
  | some t' =>
      refine .bind_ofExcept fun found hf => recorded _ fun n hn =>
        ⟨t', .inr ⟨task, List.mem_cons_self, ht⟩, reads_callbackSnapshot (lift_eq_ok ?_) hn⟩
      cases payload <;> exact hf

/-! ### The ticks and the operator -/

theorem rests_selected {select : Time → AsyncTask → Bool} {act : AsyncTask → Handler Unit}
    (hs : l.stage = .free) (hact : ∀ now task, select now task = true →
      Steady (discipline C t) (act task) { l with seen := task :: l.seen }) :
    Rests C t (selected select act) l :=
  .bind_steady steady_now fun now => leads_load (atRest_of_free hs) fun task =>
    .ite (fun h => rests_of_steady (atRest_of_free hs) (hact now task h)) fun _ => atRest_of_free hs

theorem rests_scanAcceptedStalls {stallSeconds : Seconds} (hs : l.stage = .free) :
    Rests C t (scanAcceptedStalls stallSeconds) l := by
  refine rests_selected hs fun now task _ => ?_
  split
  · exact steady_enqueue (by simp [hs])
  · refine .bind steady_now fun _ => .bind (steady_advance (atRest_of_free hs).1 ⟨?_, ?_, ?_⟩)
      fun _ => .pure _
    · exact ⟨accepted, by simp, rfl⟩
    · simp [Quiet, Assign.ofSubmission, Assign.ofIdentity]
    · simp [Silent, Assign.ofOutput]

theorem rests_scanDeadlines {message : String} (hs : l.stage = .free) :
    Rests C t (scanDeadlines message) l := by
  refine rests_selected hs fun now task _ => .bind steady_now fun _ =>
    .bind (steady_advance (atRest_of_free hs).1 ?_) fun _ => .pure _
  simp [AllowedAdvance, Quiet, Assign.ofSubmission, Assign.ofIdentity]

theorem rests_boundUnknowns {maxLifetime : Seconds} {overLimit : Bool} (hs : l.stage = .free) :
    Rests C t (boundUnknowns maxLifetime overLimit) l := by
  refine rests_selected hs fun now task _ =>
    .bind (steady_advance (atRest_of_free hs).1 ⟨?_, ?_⟩) fun _ => .pure _
  · simp [Quiet, Assign.ofSubmission, Assign.ofIdentity]
  · simp [Silent, Assign.ofOutput]

theorem rests_reconcileOrphans {stallSeconds : Seconds} (hs : l.stage = .free) :
    Rests C t (reconcileOrphans stallSeconds) l := by
  refine rests_selected hs fun now task h => .bind steady_now fun _ =>
    .bind (steady_advance (atRest_of_free hs).1 (allowed_unknown ?_ ?_ ?_)) fun _ => .pure _
  · simp only [stalledActive, Bool.and_eq_true, decide_eq_true_eq] at h
    have := h.1.1
    simp only [List.mem_cons, List.not_mem_nil, or_false] at this ⊢
    tauto
  · simp [Quiet, Assign.ofSubmission, Assign.ofIdentity]
  · simp [Silent, Assign.ofOutput]

theorem rests_dispatchDue {leaseSeconds : Seconds} (hs : l.stage = .free) :
    Rests C t (dispatchDue C leaseSeconds) l := by
  refine rests_selected hs fun now task _ => ?_
  split
  · exact .pure _
  · exact .bind (steady_apply rfl trivial) fun _ => .pure _

theorem rests_closeTask {reason : String} (hs : l.stage = .free) :
    Rests C t (closeTask reason) l := by
  refine leads_load (.raise _) fun task => .bind_steady steady_now fun _ =>
    .bind_steady (steady_advance (atRest_of_free hs).1 ⟨?_, .inl ?_⟩) fun _ =>
      .ite (fun _ => rests_of_steady (atRest_of_free hs) steady_audit) fun _ => .raise _
  · simp [Quiet, Assign.ofSubmission, Assign.ofIdentity]
  · simp [Silent, Assign.ofOutput]

theorem rests_answering {route : Handler HttpAnswer} (h : Rests C t route l) :
    Rests C t (answering route) l :=
  .bind (.mono h fun _ _ hl => rests_of_steady hl (steady_ask rfl))

/-- **Every handler keeps to the discipline.** -/
theorem follows_body (κ : Work) : Follows (discipline C t) (κ.body C t) {} := by
  refine Rests.follows ?_
  cases κ with
  | submitUpstream => exact rests_submitUpstream rfl
  | inlineSubmit req => exact rests_answering (rests_inlineSubmit rfl)
  | pollUpstream => exact rests_pollUpstream rfl
  | compensateOrphan => exact rests_compensateOrphan rfl
  | cancelUpstream => exact rests_cancelUpstream rfl
  | finalizeTask => exact rests_finalizeTask (atRest_of_free rfl)
  | storeResult attempt => exact rests_storeResult rfl
  | query auth identifier => exact rests_answering (rests_handleQuery rfl)
  | cancelRequest auth identifier => exact rests_answering (rests_handleCancel rfl)
  | callback payload => exact rests_receiveCallback rfl
  | scanAcceptedStalls stallSeconds => exact rests_scanAcceptedStalls rfl
  | scanDeadlines message => exact rests_scanDeadlines rfl
  | boundUnknowns maxLifetime overLimit => exact rests_boundUnknowns rfl
  | reconcileOrphans stallSeconds => exact rests_reconcileOrphans rfl
  | dispatchPendingTransfers =>
      exact rests_selected rfl fun _ _ _ => steady_enqueueAll (by simp)
  | dispatchDue leaseSeconds => exact rests_dispatchDue rfl
  | closeTask reason => exact rests_closeTask rfl

end AsyncGateway
