import AsyncGateway.Gateway.Accept
import AsyncGateway.Gateway.Output
import AsyncGateway.Tasks.Poll
import AsyncGateway.Tasks.Cancel

/-!
# Gateway — the query, the cancel request and the callback

The routes of a task that exists: `handleQuery` refreshes the task with the caller's credential and
shows it, `handleCancel` marks it for cancellation, `applyCallback` applies a verified callback.
The single answers are those of the source, without the envelope.
-/

namespace AsyncGateway

open TaskStatus TaskRuntime
open Interleave (Prog)

variable (C : Container)

/-- Who asks: the channel, the tenant and the upstream credential of the request. -/
structure AuthContext where
  channel : String
  tenant : String
  bearer : Option String
  actor : String := ""
  keyHash : String := ""
  mode : String := "passthrough"

/-- `assert_owned`. -/
def assertOwned (task : AsyncTask) (auth : AuthContext) : Except Exn Unit :=
  if C.ownershipCheck ∧ (task.channel ≠ auth.channel ∨ task.tenant ≠ auth.tenant) then
    .error (.httpException 404 "task not found")
  else .ok ()

/-- `_presigned_result_url`. -/
def presignedResultUrl (task : AsyncTask) (t : ResolvedTemplate) : Handler (Option String) :=
  match task.resultRef with
  | some ref =>
      if t.resultPolicy.mode = .store ∧ C.hasResultStore then
        let given := fun (ttl : Option ℤ) => ttl.filter (· ≠ 0)
        let ttl := (given t.resultPolicy.presignTtlSeconds).getD
          ((given t.strategy.presignTtlSeconds).getD C.resultPresignTtlSeconds)
        ask (.presignGet ref ttl)
      else pure none
  | none => pure none

/-- The refresh of a query: one poll with the caller's credential, none of whose exceptions leave
it.  The task as it is afterwards. -/
def refresh (task : AsyncTask) (t : ResolvedTemplate) (strategy : Strategy)
    (bearer : Option String) : Handler AsyncTask :=
  Prog.tryCatch
    (do let result ← pollOnce C task t bearer
        if result.ok then do
          handlePollResult C task t strategy result
          let refreshed ← loadTask
          pure (refreshed.getD task)
        else pure task)
    fun _ => pure task

/-- Whether the snapshot is old enough for a refresh. -/
def snapshotStale (task : AsyncTask) (minRefresh : ℚ) : Handler Bool :=
  match task.statusSnapshot, task.statusSnapshotAt with
  | some _, some at_ => do
      let now ← now_
      pure (decide (minRefresh ≤ now - at_))
  | _, _ => pure true

/-- `_handle_query`, with the template the route resolved. -/
def handleQuery (auth : AuthContext) (t : ResolvedTemplate) (identifier : String) :
    Handler HttpAnswer := do
  let strategy := C.strategyFor auth.channel t
  let minRefresh := strategy.minRefreshInterval.getD 3
  match ← ask (.findTask auth.channel identifier) with
  | none => Prog.raise (.httpException 404 "task not found")
  | some task => do
      let _ ← raiseIn (assertOwned C task auth)
      let bearer := nonEmpty auth.bearer
      let task ←
        if isBusinessTerminal task.status ∨ bearer = none ∨ task.upstreamTaskId = none then
          pure task
        else do
          if ← snapshotStale task minRefresh then refresh C task t strategy bearer else pure task
      let resultUrl ← presignedResultUrl C task t
      let native ← raiseIn (buildNativeQueryResponse C task t resultUrl)
      pure { status := 200, body := some native, headers := responseHeaders task minRefresh }

/-- `_handle_cancel`. -/
def handleCancel (auth : AuthContext) (t : ResolvedTemplate) (identifier : String) :
    Handler HttpAnswer := do
  match ← ask (.findTask auth.channel identifier) with
  | none => Prog.raise (.httpException 404 "task not found")
  | some task => do
      let _ ← raiseIn (assertOwned C task auth)
      if isBusinessTerminal task.status then
        pure { status := 409
               body := some (.obj [("detail",
                 .str ("task already in terminal state " ++ task.status.value))]) }
      else if ← applyOp .setCancelRequested then do
        enqueue "cancel:default" "cancel_upstream"
        audit { eventType := .cancelled, actor := auth.actor, subjectId := task.taskId,
                refs := [("upstream_id", .str identifier),
                  ("caps_cancel", .bool t.capabilities.cancel)]
                detail := some ("cancel requested" ++ if t.capabilities.cancel then "" else
                  "（上游不支持取消，降级为 cancel_requested 以轮询终态收敛）") }
        let _ ← loadTask
        pure { status := 202
               body := some (.obj [("detail", .str "cancel requested"),
                 ("degraded", .bool (!t.capabilities.cancel))]) }
      else Prog.raise (.httpException 409 "cancel not allowed in current state")

/-! ### The callback -/

/-- A verified callback: its payload, and the status the template reads in it. -/
structure CallbackEvent where
  payload : Json
  rawStatus : Option String

def callbackAudit (taskId : String) (refs : Json.Fields) (detail : String) : AuditEvent :=
  { eventType := .callback, actor := "upstream", subjectId := taskId, refs := refs,
    detail := some detail }

/-- A string or `None` as JSON. -/
def jsonOfOption : Option String → Json
  | some s => .str s
  | none => .null

/-- The payload as a snapshot. -/
def callbackSnapshot : Json → Json
  | .obj doc => .obj doc
  | payload => .obj [("raw", payload)]

/-- What a terminal callback writes where callbacks are the main source. -/
def callbackAdvance (task : AsyncTask) (mapped : TaskStatus) (snapshot : Json)
    (rawStatus : Option String) : Handler Bool := do
  let now ← now_
  match mapped with
  | .succeeded =>
      applyOp (.advance succeeded (some [task.status])
        [.rawStatus rawStatus, .statusSnapshot (some snapshot), .statusSnapshotAt (some now),
          .nextPollAt none, .finishedAt (some now)])
  | .timeout =>
      applyOp (.advance timeout (some [task.status])
        [.rawStatus rawStatus, .statusSnapshot (some snapshot), .errorCode (some .timeout),
          .finishedAt (some now), .nextPollAt none])
  | mapped =>
      applyOp (.advance failed (some [task.status])
        [.rawStatus rawStatus, .statusSnapshot (some snapshot), .statusSnapshotAt (some now),
          .errorCode (some .upstreamTerminal),
          .finishedAt (if mapped = dead then some now else none)])

/-- The callback for a task that is under way. -/
def applyCallbackTo (task : AsyncTask) (t : ResolvedTemplate) (event : CallbackEvent) :
    Handler Unit := do
  let snapshot := callbackSnapshot event.payload
  match t.mapsStatus (event.rawStatus.getD "") with
  | none => do
      let _ ← applyOp (.recordPollResult (some snapshot) event.rawStatus task.nextPollAt
        [task.status])
      pure ()
  | some mapped =>
      if t.statusSource = .poll then do
        -- the callback is the second source: the task is polled at once instead
        let _ ← noteAttribute [("pending_terminal_from_callback",
          .obj [("raw_status", jsonOfOption event.rawStatus), ("mapped", .str mapped.value)])]
        let now ← now_
        let _ ← applyOp (.scheduleNextPoll now)
        audit (callbackAudit task.taskId
          [("applied", .bool false), ("reason", .str "arbitration_required"),
            ("raw_status", jsonOfOption event.rawStatus)]
          "兜底源（回调）判出终态：按 §14 先触发主源复查，不直接落库")
      else do
        if ← callbackAdvance task mapped snapshot event.rawStatus then do
          audit (callbackAudit task.taskId
            [("applied", .bool true), ("mapped", .str mapped.value),
              ("raw_status", jsonOfOption event.rawStatus)] "回调驱动状态迁移")
          finalizeTask C
        else pure ()

/-- `_apply_callback`. -/
def applyCallback (taskId : String) (event : CallbackEvent) : Handler Unit := do
  let late := audit (callbackAudit taskId
    [("applied", .bool false), ("reason", .str "task terminal or missing"),
      ("raw_status", jsonOfOption event.rawStatus)]
    "回调在终态后到达：按单调不翻转丢弃（degraded 在查询面可见）")
  match ← loadTask with
  | none => late
  | some task =>
      if isBusinessTerminal task.status then late
      else
        match C.registry task.templateAlias task.templateVersion with
        | none => pure ()
        | some t => applyCallbackTo C task t event

/-- `receive_callback` of a verified callback for a task that is there. -/
def receiveCallback (payload : Json) : Handler Unit := do
  match ← loadTask with
  | none => pure ()
  | some task => do
      let doc := match payload with
        | .obj doc => Json.obj doc
        | _ => .obj []
      let rawStatus ← match C.registry task.templateAlias task.templateVersion with
        | some t => do
            let value ← raiseIn (ExpressionError.lift (tryExtract doc t.statusField))
            pure (value.map C.pyStr)
        | none => pure none
      let fresh : Bool ← ask (.insertCallbackEvent rawStatus payload)
      if fresh then
        applyCallback C task.taskId ⟨payload, rawStatus⟩
      else pure ()

end AsyncGateway
