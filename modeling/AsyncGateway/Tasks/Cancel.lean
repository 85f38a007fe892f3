import AsyncGateway.Tasks.Submit

/-!
# Tasks — `cancel_upstream`, `finalize_task` and `store_result`

The cancellation of a task, upstream where the template can, the repeatable end of a task, and the
transfer of its result to the object store.
-/

namespace AsyncGateway

open TaskStatus TaskRuntime
open Interleave (Prog)

variable (C : Container)

/-- Whether the upstream has no task to cancel any more, or says so. -/
def cancelAchieved (result : UpstreamCallResult) : Bool :=
  result.ok || result.response.any fun r => decide (r.statusCode = 404 ∨ r.statusCode = 409)

/-- The template has no cancellation: the task is only marked, but for one not yet submitted. -/
def cancelDegraded (task : AsyncTask) : Handler Unit := do
  let _ ← noteAttribute [("cancel_degraded", .bool true)]
  if task.status = accepted then do
    let now ← now_
    let _ ← applyOp (.advance cancelled (some [accepted])
      [.errorCode (some .cancelled), .finishedAt (some now)])
    finalizeTerminal task cancelled
  else enqueueSelfLater 5

/-- The task has an id, and the upstream is asked to cancel it. -/
def cancelCall (task : AsyncTask) (t : ResolvedTemplate) (upstreamTaskId : String) :
    Handler Unit := do
  let bearer ← ask .getCredential
  let request ← raiseIn (renderCancel C.joinUrl t upstreamTaskId)
  let result ← UpstreamClient.call C .cancel request .cancel bearer
  if cancelAchieved result then do
    let now ← now_
    advanceAndFinalize task cancelled [task.status]
      [.rawStatus (some "cancelled"), .errorCode (some .cancelled), .finishedAt (some now),
        .nextPollAt none]
  else do
    let _ ← noteAttribute [("cancel_degraded", .bool true)]
    let delay ← backoff (task.pollCount + 1) 5 60
    enqueueSelfLater delay

/-- `cancel_upstream` on the row it loaded. -/
def cancelLoaded (task : AsyncTask) : Handler Unit := do
  let (t, _) ← template C task
  if ¬ t.capabilities.cancel then cancelDegraded task
  else
    match nonEmpty task.upstreamTaskId with
    | none => do
        let now ← now_
        advanceAndFinalize task cancelled [accepted]
          [.errorCode (some .cancelled), .finishedAt (some now)]
    | some upstreamTaskId => cancelCall C task t upstreamTaskId

def cancelUpstream : Handler Unit := do
  match ← loadTask with
  | none => pure ()
  | some task => if isBusinessTerminal task.status then pure () else cancelLoaded C task

/-- `finalize_task`. -/
def finalizeTask : Handler Unit := do
  match ← loadTask with
  | none => pure ()
  | some task =>
      if isBusinessTerminal task.status then do
        let (t, _) ← template C task
        if task.status = succeeded ∧ t.resultPolicy.mode = .store ∧ C.hasResultStore ∧
            task.resultRef = none then
          ask (.enqueue { queue := transferQueue, name := "store_result", attempt := some 1 })
        else pure ()
        ask .dropCredential
      else pure ()

/-! ### `store_result` -/

def maxTransferAttempts : ℤ := 5

/-- What `fetch_result` gives: the body, or the reason there is none. -/
inductive Fetched : Type where
  | body (content : List UInt8)
  | ssrfRejected (violation : String)
  | transport (text : String)
  | http (statusCode : ℕ)
  | tooLarge (bytes limit : ℕ)

def Fetched.detail : Fetched → String
  | .body _ => ""
  | .ssrfRejected violation => "ssrf_rejected: " ++ violation
  | .transport text => "transport: " ++ text
  | .http statusCode => "http " ++ toString statusCode
  | .tooLarge bytes limit =>
      "result too large: " ++ toString bytes ++ "B > " ++ toString limit ++ "B"

/-- A failure that may pass: neither the SSRF check nor the size limit refused the result. -/
def Fetched.retryable : Fetched → Bool
  | .ssrfRejected _ => false
  | .tooLarge _ _ => false
  | _ => true

/-- `fetch_result`. -/
def fetchResult (url : String) : Handler Fetched := do
  match ← ask (.validateTarget url) with
  | some violation => pure (.ssrfRejected violation)
  | none => do
      ask (.send .result { method := "GET", url := url })
      match ← ask (.recv .result) with
      | .error exc => pure (.transport exc.text)
      | .ok response =>
          if ¬ (200 ≤ response.statusCode ∧ response.statusCode < 300) then
            pure (.http response.statusCode)
          else if C.resultMaxBytes < response.content.length then
            pure (.tooLarge response.content.length C.resultMaxBytes)
          else pure (.body response.content)

/-- The transfer failed for good: the task stays succeeded, its result is not available. -/
def transferFailed (task : AsyncTask) (detail : String) (refs : Json.Fields) (note : String) :
    Handler Unit := do
  let _ ← applyOp (.markResultUnavailable detail)
  audit (governance "task" task.taskId ([("event", .str "transfer_failed")] ++ refs) note)

/-- The transfer of a result that is at `url`. -/
def transfer (task : AsyncTask) (attempt : ℤ) (url : String) : Handler Unit := do
  let _ ← ask .getCredential
  match ← fetchResult C url with
  | .body payload => do
      let key := C.resultKey task.tenant task.taskId task.createdAt 1 "bin"
      ask (.putBytes key payload)
      let ok ← applyOp (.setResultRef key (some (.obj [("bytes", .int payload.length)])) none)
      if ok then
        audit { eventType := .resultExport, subjectId := task.taskId,
                refs := [("result_ref", .str key), ("bytes", .int payload.length)],
                detail := some "结果已转存对象存储，回引用对外" }
      else pure ()
  | failure =>
      if failure.retryable ∧ attempt < maxTransferAttempts then do
        let delay ← backoff attempt 5 120
        let t ← nowPlus (.fin delay)
        let _ ← applyOp (.scheduleTransferRetry t attempt)
        pure ()
      else
        transferFailed task failure.detail
          [("attempt", .int attempt),
            ("reason", .str (String.ofList (failure.detail.toList.take 200)))]
          "转存永久失败：保持 succeeded + 结果不可用；支持重放转存"

/-- `store_result`, for the attempt its message names. -/
def storeResult (attempt : ℤ) : Handler Unit := do
  match ← loadTask with
  | none => pure ()
  | some task =>
      if task.status = succeeded ∧ task.resultRef = none ∧ C.hasResultStore then do
        let (t, _) ← template C task
        if t.resultPolicy.mode ≠ .store then pure ()
        else
          match ← raiseIn (ExpressionError.lift
              (tryExtract (payloadOr task.statusSnapshot) t.resultLocation)) with
          | some (.str url) => transfer C task attempt url
          | _ =>
              transferFailed task ("result url not extractable at " ++ t.resultLocation)
                [("reason", .str "url_not_extractable")]
                "转存永久失败：保持 succeeded + 结果不可用（不伪造失败骗退款）"
      else pure ()

end AsyncGateway
