import AsyncGateway.Runtime.Container

/-!
# Tasks — what the handlers share

The queues, the template of a task, the bounded extension of its deadline, the release of a
submission intent while the upstream makes a task wait, and the ends of a task.
-/

namespace AsyncGateway

open TaskStatus
open Interleave (Prog)

def transferQueue : String := "transfer:transfer"

def poolOf (templatePool : String) : String :=
  if templatePool = "" ∨ templatePool = "shared" ∨ templatePool = "default" then "light-poll"
  else templatePool

def pollQueue (templatePool : String) : String := "poll:" ++ poolOf templatePool

namespace TaskRuntime

variable (C : Container)

/-- `TaskRuntime.template`. -/
def template (task : AsyncTask) : Handler (ResolvedTemplate × Strategy) := do
  let t ← raiseIn (C.require task.templateAlias task.templateVersion)
  pure (t, C.strategyFor task.channel t)

/-- `int(strategy.get("max_attempts", task.max_attempts or 1))`. -/
def maxAttempts (strategy : Strategy) (task : AsyncTask) : ℤ :=
  strategy.maxAttempts.getD (if task.maxAttempts = 0 then 1 else task.maxAttempts)

/-- A number of the attributes, `0.0` where there is none. -/
def numberAttribute (attributes : Option Json.Fields) (key : String) : ℚ :=
  match (attributes.getD []).lookup key with
  | some (.int n) => n
  | some (.float text) => (C.toFloat text).elim 0 fun
      | .fin q => q
      | _ => 0
  | _ => 0

/-- `_deadline_extension`: what is left of the extension a task may get. -/
def deadlineExtension (task : AsyncTask) (want : PyFloat) (cap : ℚ) : ℚ :=
  let used := numberAttribute C task.attributes "deadline_extended_seconds"
  let room := max 0 (cap - used)
  match want with
  | .fin q => max 0 (min q room)
  | .posInf => max 0 room
  | _ => 0

/-- A float as a JSON value. -/
def floatJson (q : ℚ) : Json := .float (Text.floatRepr q)

/-- `_release_for_upstream_wait`. -/
def releaseForUpstreamWait (task : AsyncTask) (expected : List TaskStatus) (delay : PyFloat)
    (code : ErrorCode) (message : Option String) (decrementAttempts : Bool) : Handler Bool := do
  let extension := deadlineExtension C task delay C.deadlineExtensionMaxSeconds
  let newDeadline := match task.deadlineAt with
    | some deadline => if 0 < extension then some (deadline + extension) else none
    | none => none
  let nextPollAt ← nowPlus delay
  let released ← applyOp (.releaseSubmitIntent expected nextPollAt decrementAttempts (some code)
    message (some true) none newDeadline)
  if released ∧ 0 < extension then do
    let used := numberAttribute C task.attributes "deadline_extended_seconds"
    let _ ← noteAttribute [("deadline_extended_seconds", floatJson (used + extension))]
    pure released
  else pure released

/-- `_note_channel_healthy`: no exception of it leaves it. -/
def noteChannelHealthy (channel : String) : Handler Unit :=
  Prog.tryCatch (ask (.decayIfClean channel C.aimdQuietSeconds)) fun _ => pure ()

/-- `enqueue_self_later`. -/
def enqueueSelfLater (delaySeconds : ℚ) : Handler Unit := do
  let t ← nowPlus (.fin (max 0 delaySeconds))
  let _ ← applyOp (.scheduleNextPoll t)
  pure ()

/-- `task.deadline_at and _now() >= task.deadline_at`. -/
def pastDeadline (task : AsyncTask) : Handler Bool :=
  match task.deadlineAt with
  | none => pure false
  | some deadline => do
      let now ← now_
      pure (decide (deadline ≤ now))

/-- Run `body` in a slot of the channel; without one, try again later. -/
def withSlot (task : AsyncTask) (body : Handler Unit) : Handler Unit := do
  let limits := C.channelLimits task.channel
  let decision : SlotDecision ← ask (.acquire task.channel task.tenant limits.1 limits.2)
  if decision.granted then
    Prog.tryFinally body (ask (.release task.channel task.tenant))
  else enqueueSelfLater (match decision.retryAfter with
    | none => 1
    | some s => if s = 0 then 1 else s)

/-- `terminal_sample`. -/
def terminalSample (task : AsyncTask) : Handler Unit := do
  let now ← now_
  ask (.recordTerminal task.channel (max 0 (now - task.startedAt.getD task.createdAt)))

def terminalEvent (task : AsyncTask) (refs : Json.Fields) : AuditEvent :=
  { eventType := .terminal, subjectId := task.taskId, refs := refs }

/-- `finalize_success`. -/
def finalizeSuccess (task : AsyncTask) (t : ResolvedTemplate) : Handler Unit := do
  terminalSample task
  if t.resultPolicy.mode = .store ∧ C.hasResultStore then
    ask (.enqueue { queue := transferQueue, name := "store_result", attempt := some 1 })
  else pure ()
  ask .dropCredential
  audit (terminalEvent task
    [("status", .str succeeded.value), ("alias", .str task.templateAlias)])

/-- `finalize_terminal`. -/
def finalizeTerminal (task : AsyncTask) (status : TaskStatus) : Handler Unit := do
  terminalSample task
  ask .dropCredential
  audit (terminalEvent task [("status", .str status.value)])

/-- Advance, and finalize the task where the advance hit. -/
def advanceAndFinalize (task : AsyncTask) (dst : TaskStatus) (expected : List TaskStatus)
    (values : List Assign) : Handler Unit := do
  if ← applyOp (.advance dst (some expected) values) then finalizeTerminal task dst else pure ()

/-- `_handle_..`'s governance event of a fault of the channel. -/
def governance (subjectType subjectId : String) (refs : Json.Fields) (detail : String) :
    AuditEvent :=
  { eventType := .governance, subjectType := subjectType, subjectId := subjectId, refs := refs,
    detail := some detail }

end TaskRuntime

end AsyncGateway
