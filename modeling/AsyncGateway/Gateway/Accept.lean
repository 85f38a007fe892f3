import AsyncGateway.Tasks.Submit

/-!
# Gateway — the inline submission of an accepted request

`inlineSubmit` submits a task while its create request is being answered.  It claims the intent
itself, makes the create call with the credential of the request, and leaves the outcome to the
worker's `handleSubmitResult`; the answer is made from the row as it is afterwards.
-/

namespace AsyncGateway

open TaskStatus TaskRuntime
open Interleave (Prog)

variable (C : Container)

/-- The request whose acceptance inserted the task. -/
structure AcceptedRequest where
  taskId : String
  channel : String
  tenant : String
  bearer : Option String
  body : Json.Fields

/-- `_must_reload`. -/
def mustReload : Handler AsyncTask := do
  match ← loadTask with
  | some task => pure task
  | none => Prog.raise (.acceptError 500 "task vanished")

def errorBody (code message taskId : String) : Json :=
  .obj [("error", .obj [("code", .str code), ("message", .str message), ("task_id", .str taskId)])]

/-- `native or {..}`. -/
def bodyOr (native : Option Json) (other : Json) : Json :=
  match native with
  | some doc => if doc.truthy then doc else other
  | none => other

/-- The answer to the create request, from the row the submission left. -/
def inlineAnswer (req : AcceptedRequest) (t : ResolvedTemplate) (result : UpstreamCallResult) :
    Handler HttpAnswer := do
  let task ← mustReload
  let native := result.response.bind (·.jsonBody)
  let nativeStatus := (result.response.map (·.statusCode)).getD 502
  let key := "reqresp:" ++ req.tenant ++ ":" ++ req.taskId
  if task.status = upstreamSubmitted then do
    ask (.putResponse key ⟨nativeStatus, native, false⟩)
    enqueue (pollQueue t.pool) "poll_upstream"
    pure { status := if 200 ≤ nativeStatus ∧ nativeStatus < 300 then nativeStatus else 200
           body := native
           headers := [("X-AG-Task-Id", req.taskId),
             ("X-AG-Upstream-Id", task.upstreamTaskId.getD "")] }
  else if task.status = submitUnknown then do
    ask (.putResponse key ⟨504, native, false⟩)
    pure { status := 504
           body := some (bodyOr native (errorBody ErrorCode.timeout.value
             "upstream create outcome unknown; safe to retry with the same idempotency key"
             req.taskId))
           headers := [("X-AG-Task-Id", req.taskId), ("X-AG-Internal-Status", task.status.value)] }
  else do
    ask (.putResponse key ⟨nativeStatus, native, false⟩)
    pure { status := nativeStatus
           body := some (bodyOr native (errorBody
             ((task.errorCode.getD .upstreamTerminal).value)
             (ResolvedTemplate.orString task.errorMessage "upstream create failed") req.taskId))
           headers := [("X-AG-Task-Id", req.taskId), ("X-AG-Internal-Status", task.status.value)] }

/-- The create call of the inline submission, and its outcome. -/
def inlineCall (req : AcceptedRequest) (t : ResolvedTemplate) : Handler UpstreamCallResult := do
  let row ← loadTask
  let callback := callbackUrl C t (row.bind (·.callbackToken))
  let request ← raiseIn (renderCreate C.joinUrl t req.body callback)
  let result ← UpstreamClient.call C .create request .submit req.bearer
  let task ← mustReload
  handleSubmitResult C task t (C.strategyFor req.channel t) result
  pure result

/-- `_inline_submit`. -/
def inlineSubmit (req : AcceptedRequest) (t : ResolvedTemplate) : Handler HttpAnswer := do
  if ← applyOp (.markSubmitIntent none) then do
    let limits := C.channelLimits req.channel
    let decision : SlotDecision ← ask (.acquire req.channel req.tenant limits.1 limits.2)
    if decision.granted then do
      let result ← Prog.tryFinally (inlineCall C req t) (ask (.release req.channel req.tenant))
      inlineAnswer req t result
    else do
      let now ← now_
      let _ ← applyOp (.releaseSubmitIntent [accepted] now true none none none none none)
      enqueue "submit:default" "submit_upstream"
      Prog.raise (.acceptError 429 "channel concurrency exhausted")
  else do
    enqueue "submit:default" "submit_upstream"
    pure { status := 202
           body := some (.obj [("task_id", .str req.taskId), ("status", .str accepted.value)]) }

end AsyncGateway
