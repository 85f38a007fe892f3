import AsyncGateway.Tasks.Submit

/-!
# Tasks — `poll_upstream`

One poll of the upstream and what its answer means for the task (`handlePollResult`).  The query
route shares `pollOnce` and `handlePollResult`.
-/

namespace AsyncGateway

open TaskStatus TaskRuntime
open Interleave (Prog)

variable (C : Container)

def poll404ConfirmThreshold : ℤ := 3

/-- `poll_once`. -/
def pollOnce (task : AsyncTask) (t : ResolvedTemplate) (bearer : Option String) :
    Handler UpstreamCallResult := do
  let request ← raiseIn (renderGet C.joinUrl t (task.upstreamTaskId.getD ""))
  UpstreamClient.call C .poll request .poll bearer

/-- `reschedule`: after the given time, or the interval of the channel where none is given. -/
def reschedule (task : AsyncTask) (elapsed : Seconds) (seconds : Option Seconds) :
    Handler Unit := do
  let interval ← match seconds.filter (· ≠ 0) with
    | some s => pure s
    | none => ask (.nextInterval task.channel elapsed false)
  let t ← nowPlus (.fin interval)
  let _ ← applyOp (.scheduleNextPoll t)
  pure ()

/-- `_snapshot_with_status`: the status field of the snapshot is the upstream's own value. -/
def snapshotWithStatus (body : Option Json) (t : ResolvedTemplate) (native : String) :
    Except Exn (Option Json) :=
  match body with
  | some (.obj doc) => do
      let doc ← ExpressionError.lift (setPathOnDoc doc t.statusField (.str native))
      .ok (some (.obj doc))
  | body => .ok body

/-- `_restore_raw_result_field`: the result field of the snapshot as the upstream sent it. -/
def restoreRawResultField (snapshot : Option Json) (t : ResolvedTemplate)
    (result : UpstreamCallResult) : Except Exn (Option Json) :=
  match result.response.bind (·.rawJsonBody), snapshot with
  | some (.obj raw), some (.obj doc) =>
      if t.resultLocation = "" then .ok snapshot
      else do
        match ← ExpressionError.lift (tryExtract (.obj raw) t.resultLocation) with
        | none => .ok snapshot
        | some .null => .ok snapshot
        | some value => do
            let doc ← ExpressionError.lift (setPathOnDoc doc t.resultLocation value)
            .ok (some (.obj doc))
  | _, _ => .ok snapshot

/-- `_enter_poll_unrecognized`. -/
def enterPollUnrecognized (task : AsyncTask) (result : UpstreamCallResult) (reason : String) :
    Handler Unit := do
  let body := result.response.bind (·.jsonBody)
  let t ← nowPlus (.fin 30)
  if task.status = pollUnrecognized then do
    let _ ← applyOp (.recordPollResult body none (some t) [task.status])
    pure ()
  else do
    let now ← now_
    let _ ← applyOp (.advance pollUnrecognized (some [task.status])
      [.statusSnapshot body, .statusSnapshotAt (some now), .rawStatus none,
        .errorCode (some .unknownExhausted), .errorMessage (some (String.ofList (reason.toList.take 500))),
        .unknownSince (some now), .nextPollAt (some t)])
    audit (governance "task" task.taskId
      [("event", .str "poll_unrecognized"), ("reason", .str reason),
        ("alias", .str task.templateAlias)]
      "轮询响应判不出终态；模板勘误后可恢复轮询（允许就地修订）")

/-- The poll was not answered with success. -/
def handlePollError (task : AsyncTask) (elapsed : Seconds) (result : UpstreamCallResult) :
    Handler Unit := do
  let expected := [task.status]
  if result.outcome = .ssrfRejected then do
    let now ← now_
    let _ ← applyOp (.advance dead (some expected)
      (deadValues .upstreamTerminal (result.safeError C) false now))
    finalizeTerminal task dead
  else
    match result.classification with
    | none => reschedule task elapsed none
    | some classification =>
        let code := classification.errorCode
        if classification.errorClass = .rateLimited then do
          ask (.noteRateLimited task.channel result.retryAfter)
          let t ← nowPlus ((result.retryAfter.getD (.fin 0)).orElse (.fin 5))
          let _ ← applyOp (.markFailure expected code (result.safeError C) true (some t) none)
          pure ()
        else if classification.channelFault then do
          ask (.noteRateLimited task.channel none)
          audit (governance "channel" task.channel
            [("event", .str "channel_fault"), ("task_id", .str task.taskId),
              ("phase", .str "poll")] "轮询期渠道级故障（401/403）")
          let delay ← backoff (task.pollCount + 1) 5 300
          reschedule task elapsed (some delay)
        else if classification.action = .confirm then do
          let seen : ℤ := match (task.attributes.getD []).lookup "poll_404_count" with
            | some (.int n) => n
            | _ => 0
          let count := seen + 1
          let statusCode : Option ℕ := result.response.map (·.statusCode)
          if statusCode = some 404 ∧ count < poll404ConfirmThreshold then do
            let _ ← noteAttribute [("poll_404_count", .int count)]
            let delay ← backoff count 5 60
            reschedule task elapsed (some delay)
          else do
            let now ← now_
            let _ ← applyOp (.advance submitUnknown (some expected)
              [.errorCode (some code), .errorMessage (result.safeError C),
                .unknownSince (some now), .nextPollAt (some now)])
            enqueue "compensate:default" "compensate_orphan"
        else do
          let _ ← applyOp (.markFailure expected code (result.safeError C) true none none)
          reschedule task elapsed none

/-- The upstream is at work: its status is none the template calls terminal. -/
def handleRunning (task : AsyncTask) (elapsed : Seconds) (snapshot : Option Json)
    (native : String) : Handler Unit := do
  let interval ← ask (.nextInterval task.channel elapsed false)
  let t ← nowPlus (.fin interval)
  let _ ← applyOp (.recordPollResult snapshot (some native) (some t) [task.status])
  if task.status = inProgress then pure ()
  else do
    let _ ← applyOp (.advance inProgress (some [task.status]) [.unknownSince none])
    pure ()

/-- The upstream reported a success. -/
def handleSucceeded (task : AsyncTask) (t : ResolvedTemplate) (snapshot : Option Json)
    (native : String) (result : UpstreamCallResult) : Handler Unit := do
  let snapshot ← raiseIn (restoreRawResultField snapshot t result)
  let now ← now_
  let ok ← applyOp (.advance succeeded (some [task.status])
    [.rawStatus (some native), .statusSnapshot snapshot, .statusSnapshotAt (some now),
      .pollCount (task.pollCount + 1), .lastPolledAt (some now), .nextPollAt none,
      .finishedAt (some now), .errorCode none, .errorMessage none])
  if ok then finalizeSuccess C task t else pure ()

/-- The upstream reported an expiry. -/
def handleExpired (task : AsyncTask) (snapshot : Option Json) (native : String) :
    Handler Unit := do
  let now ← now_
  advanceAndFinalize task timeout [task.status]
    [.rawStatus (some native), .statusSnapshot snapshot, .errorCode (some .timeout),
      .errorMessage (some s!"upstream reported {native}"), .finishedAt (some now),
      .nextPollAt none]

/-- The upstream reported a failure: the task is retried while it has attempts left. -/
def handleFailed (task : AsyncTask) (strategy : Strategy) (snapshot : Option Json)
    (native : String) : Handler Unit := do
  let maxAttempts := maxAttempts strategy task
  if (task.attempts : ℤ) < maxAttempts then do
    let now ← now_
    let delay ← backoff task.attempts 1 60
    let t ← nowPlus (.fin delay)
    let ok ← applyOp (.advance failed (some [task.status])
      [.rawStatus (some native), .statusSnapshot snapshot, .statusSnapshotAt (some now),
        .errorCode (some .upstreamTerminal),
        .errorMessage (some s!"upstream reported {native}"), .retryable (some true),
        .nextPollAt (some t)])
    if ok then
      audit (governance "task" task.taskId
        [("event", .str "task_level_retry"), ("attempts", .int task.attempts),
          ("max", .int maxAttempts)]
        "任务级重试（新业务尝试）：经 submit_upstream 重建并递增 attempts")
    else pure ()
  else do
    let now ← now_
    advanceAndFinalize task dead [task.status]
      [.rawStatus (some native), .statusSnapshot snapshot, .errorCode (some .upstreamTerminal),
        .errorMessage (some s!"upstream reported {native}; retries exhausted"),
        .retryable (some true), .finishedAt (some now), .nextPollAt none]

/-- The poll was answered with success. -/
def handlePolled (task : AsyncTask) (t : ResolvedTemplate) (strategy : Strategy)
    (elapsed : Seconds) (result : UpstreamCallResult) : Handler Unit := do
  noteChannelHealthy C task.channel
  let body := result.response.bind (·.jsonBody)
  match ← raiseIn (ExpressionError.lift (tryExtract (payloadOr body) t.statusField)) with
  | none => enterPollUnrecognized task result "status field not extractable"
  | some rawStatus => do
      let native := C.pyStr rawStatus
      let snapshot ← raiseIn (snapshotWithStatus body t native)
      match t.mapsStatus native with
      | none => handleRunning task elapsed snapshot native
      | some .succeeded => handleSucceeded C task t snapshot native result
      | some .timeout => handleExpired task snapshot native
      | some _ => handleFailed task strategy snapshot native

/-- `_handle_poll_result`. -/
def handlePollResult (task : AsyncTask) (t : ResolvedTemplate) (strategy : Strategy)
    (result : UpstreamCallResult) : Handler Unit := do
  let now ← now_
  let elapsed := max 0 (now - task.startedAt.getD task.createdAt)
  if result.ok then handlePolled C task t strategy elapsed result
  else handlePollError C task elapsed result

/-- `poll_upstream` on the row it loaded, in a state that is polled. -/
def pollLoaded (task : AsyncTask) : Handler Unit := do
  let (t, strategy) ← template C task
  let expected := [task.status]
  let overdue ← pastDeadline task
  if overdue then do
    let now ← now_
    advanceAndFinalize task timeout expected
      [.errorCode (some .timeout), .errorMessage (some "deadline exceeded"),
        .finishedAt (some now), .nextPollAt none]
  else do
    let paused : Seconds ← ask (.pausedFor task.channel)
    if 0 < paused then enqueueSelfLater (paused + 1 / 2)
    else
      match nonEmpty task.upstreamTaskId with
      | none => do
          let now ← now_
          let _ ← applyOp (.advance submitUnknown (some expected)
            [.errorCode (some .upstreamTerminal),
              .errorMessage (some "poll scheduled without upstream_task_id"),
              .unknownSince (some now), .nextPollAt (some now)])
          pure ()
      | some _ => do
          let bearer ← ask .getCredential
          withSlot C task (do
            let result ← pollOnce C task t bearer
            handlePollResult C task t strategy result)

def pollUpstream : Handler Unit := do
  match ← loadTask with
  | none => pure ()
  | some task =>
      if task.status = submitUnknown then enqueue "compensate:default" "compensate_orphan"
      else if task.status ∈ [upstreamSubmitted, inProgress, pollUnrecognized] then
        pollLoaded C task
      else pure ()

end AsyncGateway
