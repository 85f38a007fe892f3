import AsyncGateway.Tasks.Runtime

/-!
# Tasks — `submit_upstream`

The submission of a task: the intent is claimed before the upstream is called, and what the call
came to decides how the task goes on.  The inline submission of an accepted request shares
`handleSubmitResult`.
-/

namespace AsyncGateway

open TaskStatus TaskRuntime
open Interleave (Prog)

variable (C : Container)

/-- The columns of a task that comes to a dead end. -/
def deadValues (code : ErrorCode) (message : Option String) (retryable : Bool) (now : Time) :
    List Assign :=
  [.errorCode (some code), .errorMessage message, .retryable (some retryable),
    .finishedAt (some now), .nextPollAt none]

/-- The states a submission is reported from. -/
def submitSources : List TaskStatus := [accepted, failed]

/-- `load_create_body`: none where the stored body is gone. -/
def loadCreateBody (task : AsyncTask) : Handler (Option Json.Fields) :=
  match nonEmpty task.createReqRef with
  | none => pure (some [])
  | some ref => do
      match ← ask (.getBody ref) with
      | none => pure none
      | some (.obj body) => pure (some body)
      | some _ => pure (some [])

/-- The callback URL of a task whose template takes callbacks. -/
def callbackUrl (t : ResolvedTemplate) (token : Option String) : Option String :=
  if t.capabilities.callback then
    (nonEmpty token).map fun token =>
      String.ofList (C.callbackBaseUrl.toList.reverse.dropWhile (· = '/')).reverse ++
        "/callbacks/" ++ token
  else none

/-- The body of an answer, `{}` where it has none: `payload or {}`. -/
def payloadOr (payload : Option Json) : Json :=
  match payload with
  | some doc => if doc.truthy then doc else .obj []
  | none => .obj []

/-- A dead end of a submission: the task is dead, and is finalized whether or not it was this
handler that ended it. -/
def submissionDead (task : AsyncTask) (code : ErrorCode) (message : Option String)
    (retryable : Bool) : Handler Unit := do
  let now ← now_
  let _ ← applyOp (.advance dead (some submitSources) (deadValues code message retryable now))
  finalizeTerminal task dead

/-- The create call was answered with success. -/
def handleCreated (task : AsyncTask) (t : ResolvedTemplate) (result : UpstreamCallResult) :
    Handler Unit := do
  let payload := result.response.bind (·.jsonBody)
  match ← raiseIn (ExpressionError.lift (tryExtract (payloadOr payload) t.idLocation)) with
  | none => do
      -- the upstream may well have created it, under an id the template does not find
      let _ ← applyOp (.enterUnknown .upstream5xx
        (some ("create succeeded but id not found at " ++ t.idLocation)) none)
      enqueue "compensate:default" "compensate_orphan"
  | some upstreamId => do
      let rawStatus ←
        raiseIn (ExpressionError.lift (tryExtract (payloadOr payload) t.statusField))
      let interval ← ask (.nextInterval task.channel 0 true)
      let submittedAt ← now_
      let nextPollAt ← raiseIn (later submittedAt (.fin interval))
      let ok ← applyOp (.markSubmitted (C.pyStr upstreamId) (rawStatus.map C.pyStr) none
        nextPollAt none)
      if ok then do
        let _ ← noteAttribute [("create_accepted_at", .str (C.isoformat submittedAt))]
        match result.response with
        | some response =>
            ask (.putResponse ("reqresp:" ++ task.tenant ++ ":" ++ task.taskId)
              ⟨response.statusCode, payload, false⟩)
        | none => pure ()
        if task.cancelRequested then enqueue "cancel:default" "cancel_upstream" else pure ()
        noteChannelHealthy C task.channel
        enqueue (pollQueue t.pool) "poll_upstream"
      else pure ()

/-- `_handle_submit_result`. -/
def handleSubmitResult (task : AsyncTask) (t : ResolvedTemplate) (strategy : Strategy)
    (result : UpstreamCallResult) : Handler Unit := do
  let maxAttempts := maxAttempts strategy task
  if result.outcome = .ssrfRejected then
    submissionDead task .upstreamTerminal (result.safeError C) false
  else if result.ok then handleCreated C task t result
  else
    match result.classification with
    | none => Prog.raise (.infrastructure "assert classification is not None")
    | some classification =>
        let code := classification.errorCode
        if classification.errorClass = .rateLimited then do
          let base ← ask (.baseInterval task.channel 0 true)
          let delay := (result.retryAfter.getD (.fin 0)).orElse
            (.fin (min base C.submitRetryMaxSeconds))
          ask (.noteRateLimited task.channel result.retryAfter)
          let _ ← releaseForUpstreamWait C task submitSources delay code (result.safeError C) true
          pure ()
        else if classification.channelFault then do
          ask (.noteRateLimited task.channel none)
          let delay ← backoff task.attempts 5 300
          let _ ← releaseForUpstreamWait C task submitSources (.fin delay) code
            (result.safeError C) true
          let _ ← noteAttribute [("channel_fault", .bool true)]
          audit (governance "channel" task.channel
            [("event", .str "channel_fault"), ("task_id", .str task.taskId),
              ("error_code", .str code.value)]
            "渠道级故障（401/403）：熔断反馈回路 = 网关告警 → New API 渠道禁用该 key → 换 key")
        else if classification.errorClass = .failFast then
          submissionDead task code (result.safeError C) false
        else if classification.isUnknown then do
          let _ ← applyOp (.enterUnknown code (result.safeError C) none)
          enqueue "compensate:default" "compensate_orphan"
        else if maxAttempts ≤ task.attempts then
          submissionDead task code (result.safeError C) true
        else do
          -- the request never left: safe to send again
          let delay ← backoff task.attempts 1 60
          let nextPollAt ← nowPlus (.fin delay)
          let _ ← applyOp (.releaseSubmitIntent submitSources nextPollAt false (some code)
            (result.safeError C) (some true) none none)
          pure ()

/-- What `submit_upstream` does with the slot it was granted. -/
def submitWithSlot (task : AsyncTask) (t : ResolvedTemplate) (strategy : Strategy)
    (bearer : String) : Handler Unit := do
  if ← applyOp (.markSubmitIntent none) then do
    match ← loadCreateBody task with
    | none => do
        let now ← now_
        advanceAndFinalize task dead [task.status]
          (deadValues .requestLost (some "create request body missing in request store") false now)
    | some body => do
        let request ←
          raiseIn (renderCreate C.joinUrl t body (callbackUrl C t task.callbackToken))
        let result ← UpstreamClient.call C .create request .submit (some bearer)
        handleSubmitResult C task t strategy result
  else pure ()

/-- `submit_upstream` on the row it loaded. -/
def submitLoaded (task : AsyncTask) : Handler Unit := do
  let (t, strategy) ← template C task
  let expected := [task.status]
  let overdue ← pastDeadline task
  if overdue then
    advanceAndFinalize task timeout expected
      [.errorCode (some .timeout), .errorMessage (some "deadline exceeded before submit")]
  else if task.cancelRequested then advanceAndFinalize task cancelled expected []
  else
    match nonEmpty (← ask .getCredential) with
    | none => do
        let now ← now_
        let _ ← applyOp (.advance dead (some expected) (deadValues .upstream4xx
          (some "upstream credential unavailable (expired or not retained)") false now))
        finalizeTerminal task dead
    | some bearer => withSlot C task (submitWithSlot C task t strategy bearer)

def submitUpstream : Handler Unit := do
  match ← loadTask with
  | none => pure ()
  | some task =>
      if task.status = accepted ∨ task.status = failed then submitLoaded C task else pure ()

end AsyncGateway
