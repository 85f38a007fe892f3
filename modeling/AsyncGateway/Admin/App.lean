import AsyncGateway.Admin.Approvals
import AsyncGateway.Db.Audit
import AsyncGateway.Gateway.Direct

/-!
# Admin — the governance of templates and tasks

The requests of the administration that need an approval ticket, and those that create and approve
one: a template is patched in place or published, the canary binding of a channel set, a task
replayed as a new row or closed.  They work on the tickets, the registry and the policies of the
process and on the stores of the tasks, so they are programs over operations of their own
(`AdminOp`).
-/

namespace AsyncGateway

open TaskStatus
open Interleave (Prog)

/-- A row of the table, with the columns only the administration reads. -/
structure TaskRecord extends AsyncTask where
  origin : Origin
  replayOf : Option String := none
  idempotencyWindowSeconds : ℤ

structure GovernanceEvent where
  eventType : String
  actor : Actor
  subjectType : String
  subjectId : String
  refs : Json.Fields
  payload : Option Json := none
  detail : String

inductive AdminOp : Type where
  | createTicket (action subject payloadDigest actor : String)
  | approveTicket (ticketId : String) (approver : Actor)
  | consume (ticketId : Option String) (action subject : String)
  /-- `registry.plan_change`. -/
  | planChange (raw : Json.Fields)
  | patchInPlace (raw : Json.Fields)
  | register (raw : Json.Fields)
  /-- `registry.get`. -/
  | templateVersion (a : String) (version : ℕ)
  /-- `channel_policies[channel]["canary"][alias][str(version)] = weight`. -/
  | bindCanary (channel a : String) (version : ℤ) (weight : ℚ)
  | activeTasks (channel : String)
  | upsertTemplateVersion (a : String) (version : ℕ) (createdBy : String)
      (approvedBy : Option String)
  | getTask (taskId : String)
  | enforceReplayRate (actor : String)
  /-- `get_bytes` and `json.loads`. -/
  | getJson (key : String)
  | newTaskId
  | utcnow
  | now
  | newOpaqueToken
  | putJson (key : String) (payload : Json) (ttlSeconds : ℤ)
  | insert (task : TaskRecord)
  | putCredential (taskId headerValue : String) (ttlSeconds : ℤ)
  | enqueue (taskId : String) (message : Message)
  | write (taskId : String) (op : DaoOp)
  | audit (event : GovernanceEvent)

@[reducible] def AdminOp.Ans : AdminOp → Type
  | .createTicket _ _ _ _ => String
  | .approveTicket _ _ => Unit
  | .consume _ _ _ => ApprovalTicket
  | .planChange _ => ChangePlan
  | .patchInPlace _ => Option TemplateVersion
  | .register _ => Option TemplateVersion
  | .templateVersion _ _ => Option TemplateVersion
  | .bindCanary _ _ _ _ => Unit
  | .activeTasks _ => ℕ
  | .upsertTemplateVersion _ _ _ _ => Unit
  | .getTask _ => Option TaskRecord
  | .enforceReplayRate _ => Unit
  | .getJson _ => Json
  | .newTaskId => String
  | .utcnow => Time
  | .now => Time
  | .newOpaqueToken => String
  | .putJson _ _ _ => Unit
  | .insert _ => Unit
  | .putCredential _ _ _ => Unit
  | .enqueue _ _ => Unit
  | .write _ _ => Bool
  | .audit _ => Unit

abbrev adminEffects : Interleave.Sig := ⟨AdminOp, AdminOp.Ans⟩

abbrev AdminHandler (α : Type) := Interleave.Prog adminEffects Exn α

def askAdmin (o : AdminOp) : AdminHandler o.Ans := Prog.perform (S := adminEffects) o

/-- What the administration runs with. -/
structure AdminApp where
  library : TemplateLibrary
  container : Container
  sha256 : String → String
  taskDeadlineSeconds : ℤ := 1800

namespace AdminApp

variable (A : AdminApp)

def refuse {α : Type} (status : ℕ) (detail : String) : AdminHandler α :=
  Prog.raise (.httpException status detail)

/-- `json or default`, of a field that is not given. -/
def fieldOr (body : Json.Fields) (key : String) (default : Json) : Json :=
  (body.lookup key).getD default

/-! ### Tickets -/

/-- `create_approval`. -/
def createApproval (actor : Actor) (body : Json.Fields) : AdminHandler String := do
  let action := A.container.pyStr (fieldOr body "action" (.str ""))
  let subject := A.container.pyStr (fieldOr body "subject" (.str ""))
  match highRiskActions.lookup action with
  | none => refuse 400 ("unknown action: " ++ action)
  | some required => do
      Prog.ofExcept (actor.require required)
      let digest := digestOf A.sha256 (fieldOr body "payload" (.obj []))
      let ticketId : String ← askAdmin (.createTicket action subject digest actor.name)
      askAdmin (.audit
        { eventType := "governance.operation"
          actor := actor
          subjectType := "approval"
          subjectId := ticketId
          refs := [("action", .str action), ("subject", .str subject),
            ("impact", fieldOr body "impact" (.obj []))]
          detail := "高危操作待审批（需他人复核）" })
      pure ticketId

/-- `approve`. -/
def approve (actor : Actor) (ticketId : String) : AdminHandler Unit := do
  Prog.ofExcept (actor.require [.approver])
  askAdmin (.approveTicket ticketId actor)
  askAdmin (.audit
    { eventType := "governance.operation"
      actor := actor
      subjectType := "approval"
      subjectId := ticketId
      refs := []
      detail := "高危操作复核通过" })

/-! ### Templates -/

def jsonOfTicket : Option String → Json
  | some ticketId => .str ticketId
  | none => .null

/-- `_persist_template`, and the audit of the change. -/
def recordChange (actor : Actor) (ticketId : Option String) (tv : TemplateVersion)
    (eventType subject detail : String) (raw : Json.Fields) : AdminHandler Unit := do
  askAdmin (.upsertTemplateVersion tv.aliasName tv.version actor.name ticketId)
  askAdmin (.audit
    { eventType := eventType
      actor := actor
      subjectType := "template"
      subjectId := subject
      refs := [("approval_ticket", jsonOfTicket ticketId)]
      payload := some (.obj raw)
      detail := detail })

/-- `patch_template`: the ticket is for the alias of the path, the change is the draft's. -/
def patchTemplate (actor : Actor) (ticketId : Option String) (a : String) (raw : Json.Fields) :
    AdminHandler Unit := do
  Prog.ofExcept (actor.require [.templateAuthor, .approver])
  let plan : ChangePlan ← Prog.tryCatch (askAdmin (.planChange raw)) fun _ => refuse 400 ""
  if plan.applyMode ≠ .inPlace then refuse 409 "这些字段不允许就地修订，请走版本化灰度"
  else do
    let _ ← askAdmin (.consume ticketId "template.patch" a)
    match ← askAdmin (.patchInPlace raw) with
    | none => refuse 400 "validation"
    | some tv =>
        recordChange actor ticketId tv "template.patched_in_place"
          (a ++ "@" ++ toString tv.version) "就地勘误（仅判定逻辑，不改请求形状）" raw

/-- The ticket of a publication, where the change needs one. -/
def reviewPublication (plan : ChangePlan) (ticketId : Option String) (a : String) :
    AdminHandler Unit :=
  if plan.requiresDualReview then do
    let _ ← askAdmin (.consume ticketId "template.publish" a)
    pure ()
  else pure ()

/-- `publish_template`. -/
def publishTemplate (actor : Actor) (ticketId : Option String) (raw : Json.Fields) :
    AdminHandler Unit := do
  Prog.ofExcept (actor.require [.templateAuthor, .approver])
  match A.library.validate raw with
  | none => refuse 400 "validation"
  | some t => do
      let plan : ChangePlan ← askAdmin (.planChange raw)
      reviewPublication plan ticketId t.aliasName
      match ← askAdmin (.register raw) with
      | none => refuse 400 "validation"
      | some tv =>
          recordChange actor ticketId tv "template.changed"
            (tv.aliasName ++ "@" ++ toString tv.version) "模板版本发布" raw

/-- `float(x)`; an integer no float reaches has none. -/
def floatOf : Json → Except Exn PyFloat
  | .int n => (floatOfInt n).map .fin
  | .bool b => .ok (.fin (if b then 1 else 0))
  | .float text => ofText text
  | .str s => ofText s
  | _ => .error .typeError
where
  ofText (text : String) : Except Exn PyFloat :=
    match A.container.toFloat text with
    | some x => .ok x
    | none => .error (.infrastructure "ValueError")

/-- `int(x)`. -/
def intOf : Json → Except Exn ℤ
  | .int n => .ok n
  | .bool b => .ok (if b then 1 else 0)
  | .str s => match Text.int? s.toList with
    | some n => .ok n
    | none => .error (.infrastructure "ValueError")
  | .float text => match A.container.toFloat text with
    | some (.fin q) => .ok (truncate q)
    | some .nan => .error (.infrastructure "ValueError")
    | _ => .error .overflowError
  | _ => .error .typeError

/-- `max(0.0, min(1.0, x))`. -/
def clampWeight : PyFloat → ℚ
  | .fin q => max 0 (min 1 q)
  | .negInf => 0
  | _ => 1

/-- `set_canary`: the binding is set before the ticket is looked at. -/
def setCanary (actor : Actor) (ticketId : Option String) (a : String) (body : Json.Fields) :
    AdminHandler Unit := do
  Prog.ofExcept (actor.require [.operator, .approver])
  let version ← Prog.ofExcept (A.intOf (fieldOr body "version" (.int 0)))
  let weight ← Prog.ofExcept (A.floatOf (fieldOr body "weight" (.int 0)))
  let channel := A.container.pyStr (fieldOr body "channel" (.str ""))
  if channel = "" then refuse 400 "channel required"
  else do
    askAdmin (.bindCanary channel a version (clampWeight weight))
    let _ ← askAdmin (.consume ticketId "template.canary" a)
    let active : ℕ ← askAdmin (.activeTasks channel)
    askAdmin (.audit
      { eventType := "template.canary_changed"
        actor := actor
        subjectType := "template"
        subjectId := a ++ "@" ++ toString version
        refs := [("channel", .str channel), ("active_tasks", .int active),
          ("approval_ticket", jsonOfTicket ticketId)]
        detail := "灰度权重变更（权重 0 = 回滚）" })

/-! ### Tasks -/

/-- The text before the first `#attempt`. -/
def beforeAttempt : List Char → List Char
  | [] => []
  | c :: cs => if "#attempt".toList.isPrefixOf (c :: cs) then [] else c :: beforeAttempt cs

/-- The text after the last `#attempt`, where there is one. -/
def afterAttempt : List Char → Option (List Char)
  | [] => none
  | c :: cs =>
      (afterAttempt cs).or
        (if "#attempt".toList.isPrefixOf (c :: cs) then some ((c :: cs).drop 8) else none)

/-- `attempt_of`. -/
def attemptOf (key : String) : ℤ :=
  match afterAttempt key.toList with
  | some rest => (Text.int? rest).getD 1
  | none => 1

/-- `retry_key`. -/
def retryKey (baseKey : String) (attempt : ℤ) : String :=
  String.ofList (beforeAttempt baseKey.toList) ++ "#attempt" ++ toString (max 1 attempt)

example : retryKey "auto:key1|deadbeef" (attemptOf "auto:key1|deadbeef" + 1) =
    "auto:key1|deadbeef#attempt2" := by decide +kernel

/-- A request to replay a task, with its headers. -/
structure ReplayCall where
  actor : Actor
  taskId : String
  ticketId : Option String := none
  humanConfirmed : String := ""
  credential : String := ""
  replayReason : String := ""

def bodyTtlSeconds : ℤ := min 3600 (max 300 (A.taskDeadlineSeconds + 300))

/-- The body of the parent; an empty one where there is none, or it cannot be read. -/
def parentBody (parent : TaskRecord) : AdminHandler Json.Fields :=
  match nonEmpty parent.createReqRef with
  | none => pure []
  | some ref => do
      let parsed ← Prog.tryCatch (askAdmin (.getJson ref)) fun _ => pure .null
      pure (match parsed with
        | .obj fields => fields
        | _ => [])

/-- The row of the replay. -/
def replayRow (parent : TaskRecord) (t : ResolvedTemplate) (call : ReplayCall) (childId : String)
    (bucketAt deadlineFrom : Time) (callbackToken : Option String) : TaskRecord where
  taskId := childId
  idempotencyKey := retryKey parent.idempotencyKey (attemptOf parent.idempotencyKey + 1)
  idempotencyBucket := windowBucket bucketAt parent.idempotencyWindowSeconds
  idempotencyWindowSeconds := parent.idempotencyWindowSeconds
  tenant := parent.tenant
  channel := parent.channel
  status := accepted
  rowVersion := 0
  templateAlias := parent.templateAlias
  templateVersion := parent.templateVersion
  upstreamTaskId := none
  attempts := 0
  maxAttempts := parent.maxAttempts
  submitStartedAt := none
  deadlineAt := some (deadlineFrom + truncate (t.strategy.deadlineSeconds.getD 1800))
  callbackToken := callbackToken
  createReqRef := some (requestKey parent.tenant childId)
  createReqDigest := parent.createReqDigest
  resultRef := none
  resultSummary := none
  resultDegraded := none
  statusSnapshot := none
  statusSnapshotAt := none
  rawStatus := none
  errorCode := none
  errorMessage := none
  retryable := none
  cancelRequested := false
  cancelRequestedAt := none
  unknownSince := none
  confirmAttempts := 0
  lastConfirmedAt := none
  pollCount := 0
  nextPollAt := none
  lastPolledAt := none
  createdAt := deadlineFrom
  updatedAt := deadlineFrom
  startedAt := none
  finishedAt := none
  attributes := some
    [("replay_reason", .str (String.ofList (call.replayReason.toList.take 200)))]
  origin := .replay
  replayOf := some parent.taskId

/-- `new_opaque_token() if tv.resolved.capabilities.callback else None`. -/
def replayToken (t : ResolvedTemplate) : AdminHandler (Option String) :=
  if t.capabilities.callback then do
    let token : String ← askAdmin .newOpaqueToken
    pure (some token)
  else pure none

/-- The child of the parent is stored, inserted and enqueued. -/
def createChild (call : ReplayCall) (parent : TaskRecord) (t : ResolvedTemplate)
    (body : Json.Fields) (credential : String) : AdminHandler String := do
  let childId : String ← askAdmin .newTaskId
  askAdmin (.putJson (requestKey parent.tenant childId) (.obj body) A.bodyTtlSeconds)
  let bucketAt : Time ← askAdmin .utcnow
  let deadlineFrom : Time ← askAdmin .now
  let token ← replayToken t
  askAdmin (.insert (replayRow parent t call childId bucketAt deadlineFrom token))
  askAdmin (.putCredential childId credential A.bodyTtlSeconds)
  askAdmin (.enqueue childId { queue := "submit:default", name := "submit_upstream" })
  askAdmin (.audit
    { eventType := "task.replay"
      actor := call.actor
      subjectType := "task"
      subjectId := childId
      refs := [("parent", .str parent.taskId), ("approval_ticket", jsonOfTicket call.ticketId)]
      detail := "死信/unknown 重放：新任务行（origin=replay），原任务保持不变" })
  pure childId

/-- Whether the upstream needs no confirmation by a human, or has it. -/
def confirmed (t : ResolvedTemplate) (call : ReplayCall) : Bool :=
  t.capabilities.confirmAutoAllowed ||
    decide (call.humanConfirmed.toLower ∈ ["1", "true", "yes"])

/-- The body and the credential of the replay, then its child. -/
def replayParent (call : ReplayCall) (parent : TaskRecord) (tv : TemplateVersion) :
    AdminHandler String := do
  let body ← parentBody parent
  let credential := String.ofList (Text.strip call.credential.toList)
  if credential = "" then refuse 409 "no data-plane credential available for replay"
  else A.createChild call parent tv.resolved body credential

/-- `replay_task`. -/
def replayTask (call : ReplayCall) : AdminHandler String := do
  Prog.ofExcept (call.actor.require [.operator, .approver])
  match ← askAdmin (.getTask call.taskId) with
  | none => refuse 404 "task not found"
  | some parent =>
      if ¬ isBusinessTerminal parent.status ∧ parent.status ≠ failed then
        refuse 409 "only terminal/retryable tasks can be replayed"
      else if parent.origin = .dryRun then refuse 409 "dry-run tasks are not replayable"
      else do
        let _ ← askAdmin (.consume call.ticketId "task.replay" call.taskId)
        askAdmin (.enforceReplayRate call.actor.name)
        if (nonEmpty parent.upstreamTaskId).isSome then
          refuse 409 "已有 upstream_task_id：禁止重放创建类动作（只能继续轮询/人工关闭）"
        else do
          match ← askAdmin (.templateVersion parent.templateAlias parent.templateVersion) with
          | none => refuse 409 "template version unavailable"
          | some tv =>
              if ¬ confirmed tv.resolved call then
                refuse 409 "该上游 confirm_strategy=manual_only：重放前必须人工确认上游未创建"
              else A.replayParent call parent tv

/-- `(body or {}).get("reason", "closed by human")[:500]`. -/
def closeReason (body : Option Json.Fields) : Except Exn String :=
  match fieldOr (body.getD []) "reason" (.str "closed by human") with
  | .str s => .ok (String.ofList (s.toList.take 500))
  | _ => .error .typeError

/-- `close_task`: it asks for the ticket of a replay. -/
def closeTask (actor : Actor) (ticketId : Option String) (taskId : String)
    (body : Option Json.Fields) : AdminHandler Unit := do
  Prog.ofExcept (actor.require [.operator, .approver])
  let _ ← askAdmin (.consume ticketId "task.replay" taskId)
  match ← askAdmin (.getTask taskId) with
  | none => refuse 404 "task not found"
  | some task => do
      let reason ← Prog.ofExcept (closeReason body)
      let finishedAt : Time ← askAdmin .now
      let moved : Bool ← askAdmin (.write taskId (.advance dead (some [task.status])
        [.errorCode (some .unknownExhausted), .errorMessage (some reason),
          .finishedAt (some finishedAt), .nextPollAt none]))
      if ¬ moved then refuse 409 "illegal transition from current state"
      else askAdmin (.audit
        { eventType := "governance.operation"
          actor := actor
          subjectType := "task"
          subjectId := taskId
          refs := [("operation", .str "close"), ("reason", fieldOr (body.getD []) "reason" .null)]
          detail := "人工关闭" })

end AdminApp

end AsyncGateway
