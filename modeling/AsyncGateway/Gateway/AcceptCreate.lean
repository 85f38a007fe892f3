import AsyncGateway.Db.Dao
import AsyncGateway.Gateway.Accept
import AsyncGateway.Gateway.Idempotency
import AsyncGateway.Gateway.Routes

/-!
# Gateway — the acceptance of a create request

`acceptCreate` admits the request, looks its idempotency key up, and either answers from the task
that holds the key (`replayOrConflict`) or inserts a new one; a request whose insert meets the
constraint answers from the task that won.  It works on the table of all tasks and on the stores
of all requests, so it is a program over operations of its own (`AcceptOp`).
-/

namespace AsyncGateway

open TaskStatus
open Interleave (Prog)

inductive Origin : Type where
  | user
  | dryRun
  | replay
  deriving DecidableEq

def Origin.value : Origin → String
  | user => "user"
  | dryRun => "dry_run"
  | replay => "replay"

/-- A create request, with the template version it resolved to. -/
structure CreateRequest where
  auth : AuthContext
  template : ResolvedTemplate
  version : ℕ
  body : Json.Fields
  explicitKey : Option String := none
  origin : Origin := .user
  requestDeadlineSeconds : Option ℤ := none

structure AcceptResult where
  taskId : String
  httpStatus : ℕ
  body : Option Json
  headers : List (String × String) := []
  replayed : Bool := false

/-- What the caller is answered: the result, the refusal of an `AcceptError`, or the answer of the
application to any other exception. -/
inductive CreateAnswer : Type where
  | accepted (result : AcceptResult)
  | refused (status : ℕ) (detail : String)
  | internalError

inductive AcceptOp : Type where
  /-- `accept_limiter.try_acquire`. -/
  | tryAcquire (channel : String)
  | depth (queue : String)
  /-- The clock of `window_bucket`. -/
  | utcnow
  /-- `_now()`. -/
  | now
  | findByIdempotency (key : String) (bucket : ℤ)
  /-- `uuid.uuid4().hex[:24]`. -/
  | newTaskId
  | newOpaqueToken
  | putJson (key : String) (payload : Json) (ttlSeconds : ℤ)
  /-- `get_bytes` and `json.loads`. -/
  | getJson (key : String)
  /-- Whether the row was inserted; not where the constraint was violated. -/
  | insert (task : AsyncTask)
  | putCredential (taskId : String) (headerValue : String) (ttlSeconds : ℤ)
  | audit (event : AuditEvent)
  | enqueue (taskId : String) (message : Message)
  /-- `_inline_submit` of the task that was inserted. -/
  | inlineSubmit (request : AcceptedRequest)
  | respond (answer : CreateAnswer)
  /-- A write of another process, on any task. -/
  | write (taskId : String) (op : DaoOp)

def AcceptOp.Ans : AcceptOp → Type
  | .tryAcquire _ => SlotDecision
  | .depth _ => ℕ
  | .utcnow => Time
  | .now => Time
  | .findByIdempotency _ _ => Option AsyncTask
  | .newTaskId => String
  | .newOpaqueToken => String
  | .putJson _ _ _ => Unit
  | .getJson _ => Json
  | .insert _ => Bool
  | .putCredential _ _ _ => Unit
  | .audit _ => Unit
  | .enqueue _ _ => Unit
  | .inlineSubmit _ => HttpAnswer
  | .respond _ => Unit
  | .write _ _ => Bool

abbrev acceptEffects : Interleave.Sig := ⟨AcceptOp, AcceptOp.Ans⟩

abbrev AcceptHandler (α : Type) := Interleave.Prog acceptEffects Exn α

def askAccept (o : AcceptOp) : AcceptHandler o.Ans := Prog.perform (S := acceptEffects) o

/-- The container, the hash and the settings of the acceptance. -/
structure Intake where
  container : Container
  hashing : Hashing
  queued : Bool := true
  hasCredentialStore : Bool := true
  taskDeadlineSeconds : ℤ := 1800
  idempotencyWindowSeconds : ℤ := 86400
  maxDepth : ℕ := 100000

def requestKey (tenant taskId : String) : String := "req:" ++ tenant ++ ":" ++ taskId

def responseKey (tenant taskId : String) : String := "reqresp:" ++ tenant ++ ":" ++ taskId

/-- `int(x)` of a number. -/
def truncate (q : ℚ) : ℤ := if 0 ≤ q then ⌊q⌋ else ⌈q⌉

namespace Intake

variable (I : Intake)

def bodyTtlSeconds : ℤ := min 3600 (max 300 (I.taskDeadlineSeconds + 300))

def responseTtlSeconds : ℤ := max 60 I.idempotencyWindowSeconds

def credentialTtlSeconds : ℤ := min 3600 (max 300 (I.taskDeadlineSeconds + 300))

variable (r : CreateRequest)

def strategy : Strategy := I.container.strategyFor r.auth.channel r.template

/-- `int(strategy.get("idempotency_window_seconds", 86400))`. -/
def window : ℤ := (I.strategy r).idempotencyWindowSeconds.getD 86400

def idem : IdempotencyKey :=
  resolveKey I.hashing r.explicitKey r.auth.keyHash r.body r.template

/-- `int(request_deadline_seconds or strategy.get("deadline_seconds", 1800))`. -/
def deadlineSeconds : ℤ :=
  (r.requestDeadlineSeconds.filter (· ≠ 0)).getD
    (truncate ((I.strategy r).deadlineSeconds.getD 1800))

/-- The row of a request that is accepted. -/
def newTask (taskId : String) (bucket : ℤ) (now : Time) (callbackToken : Option String) :
    AsyncTask where
  taskId := taskId
  idempotencyKey := (I.idem r).key
  idempotencyBucket := bucket
  tenant := r.auth.tenant
  channel := r.auth.channel
  status := accepted
  rowVersion := 0
  templateAlias := r.template.aliasName
  templateVersion := r.version
  upstreamTaskId := none
  attempts := 0
  maxAttempts := (I.strategy r).maxAttempts.getD 3
  submitStartedAt := none
  deadlineAt := some (now + I.deadlineSeconds r)
  callbackToken := callbackToken
  createReqRef := some (requestKey r.auth.tenant taskId)
  createReqDigest := some (I.idem r).bodyDigest
  resultRef := none
  resultSummary := none
  resultDegraded := none
  statusSnapshot := none
  statusSnapshotAt := none
  rawStatus := none
  errorCode := none
  errorMessage := none
  retryable := none
  cancelRequested := false
  cancelRequestedAt := none
  unknownSince := none
  confirmAttempts := 0
  lastConfirmedAt := none
  pollCount := 0
  nextPollAt := none
  lastPolledAt := none
  createdAt := now
  updatedAt := now
  startedAt := none
  finishedAt := none
  attributes := some [("create_response_ref", .str (responseKey r.auth.tenant taskId))]

end Intake

/-! ### Answering from the task that holds the key -/

/-- The key of the archived response of a task. -/
def responseRef (existing : AsyncTask) : String :=
  match (existing.attributes.getD []).lookup "create_response_ref" with
  | some (.str ref) => if ref = "" then responseKey existing.tenant existing.taskId else ref
  | _ => responseKey existing.tenant existing.taskId

/-- `int(stored.get("status") or 200)`. -/
def storedStatus (stored : Json.Fields) : ℕ :=
  match stored.lookup "status" with
  | some (.int n) => if n = 0 then 200 else n.toNat
  | _ => 200

/-- The replay of what is stored; nothing, or a pending response, is answered with 202. -/
def replayResult (existing : AsyncTask) (stored : Json.Fields) : AcceptResult :=
  if stored = [] ∨ (stored.lookup "pending").any Json.truthy then
    { taskId := existing.taskId
      httpStatus := 202
      body := some (.obj [("id", .str existing.taskId), ("task_id", .str existing.taskId),
        ("status", .str existing.status.value)])
      headers := [("X-AG-Task-Id", existing.taskId), ("X-AG-Idempotent-Replay", "1")]
      replayed := true }
  else
    { taskId := existing.taskId
      httpStatus := storedStatus stored
      body := stored.lookup "body"
      headers := [("X-AG-Task-Id", existing.taskId), ("X-AG-Idempotent-Replay", "1")]
      replayed := true }

@[simp] theorem replayResult_taskId (existing : AsyncTask) (stored : Json.Fields) :
    (replayResult existing stored).taskId = existing.taskId := by
  unfold replayResult
  split <;> rfl

/-- The same key was used with another body. -/
def conflicts (existing : AsyncTask) (digest : String) : Bool :=
  match nonEmpty existing.createReqDigest with
  | some d => decide (digest ≠ "" ∧ d ≠ digest)
  | none => false

/-- `_replay_or_conflict`: no exception of the store leaves it. -/
def replayOrConflict (existing : AsyncTask) (digest : String) : AcceptHandler AcceptResult :=
  if conflicts existing digest then
    Prog.raise (.acceptError 409
      "idempotency key reused with a different request body within the dedup window")
  else do
    let stored ← Prog.tryCatch (askAccept (.getJson (responseRef existing))) fun _ => pure (.obj [])
    pure (replayResult existing (match stored with
      | .obj fields => fields
      | _ => []))

/-! ### `accept_create` -/

section Create

variable (I : Intake) (r : CreateRequest)

/-- `_audit_accept`. -/
def acceptedEvent (taskId : String) : AuditEvent where
  eventType := .accepted
  actor := r.auth.actor
  subjectId := taskId
  refs := [("alias", .str r.template.aliasName), ("version", .int r.version),
    ("channel", .str r.auth.channel), ("tenant", .str r.auth.tenant),
    ("origin", .str r.origin.value), ("derived_key", .bool (I.idem r).derived),
    ("auth_mode", .str r.auth.mode)]
  detail := some "task accepted"

/-- The credential of the request is kept for the worker that submits the task. -/
def keepCredential (taskId : String) : AcceptHandler Unit :=
  if I.hasCredentialStore then
    match nonEmpty r.auth.bearer with
    | some bearer => askAccept (.putCredential taskId bearer I.credentialTtlSeconds)
    | none => pure ()
  else pure ()

/-- The task is inserted: its credential is kept, and it is left to the queue or submitted. -/
def acceptInserted (taskId : String) : AcceptHandler AcceptResult := do
  keepCredential I r taskId
  askAccept (.audit (acceptedEvent I r taskId))
  if I.queued then do
    askAccept (.enqueue taskId { queue := "submit:default", name := "submit_upstream" })
    pure { taskId := taskId
           httpStatus := 202
           body := some (.obj [("id", .str taskId), ("task_id", .str taskId),
             ("status", .str "queued")])
           headers := [("X-AG-Task-Id", taskId), ("X-AG-Internal-Status", accepted.value)] }
  else do
    let answer : HttpAnswer ← askAccept (.inlineSubmit
      ⟨taskId, r.auth.channel, r.auth.tenant, r.auth.bearer, r.body⟩)
    pure { taskId := taskId, httpStatus := answer.status, body := answer.body,
           headers := answer.headers }

/-- The insert of the new row.  Where another call inserted a row of the key first, the answer is
made from that row. -/
def insertTask (bucket : ℤ) (task : AsyncTask) : AcceptHandler AcceptResult := do
  let inserted : Bool ← askAccept (.insert task)
  if inserted then acceptInserted I r task.taskId
  else do
    match ← askAccept (.findByIdempotency (I.idem r).key bucket) with
    | some winner => replayOrConflict winner (I.idem r).bodyDigest
    | none => Prog.raise (.acceptError 409 "idempotency conflict")

/-- `new_opaque_token() if template.capabilities.callback else None`. -/
def callbackToken : AcceptHandler (Option String) :=
  if r.template.capabilities.callback then do
    let token : String ← askAccept .newOpaqueToken
    pure (some token)
  else pure none

/-- The request whose key is free: its body is stored, and the row inserted. -/
def acceptNew (bucket : ℤ) : AcceptHandler AcceptResult := do
  let taskId : String ← askAccept .newTaskId
  askAccept (.putJson (requestKey r.auth.tenant taskId) (.obj r.body) I.bodyTtlSeconds)
  askAccept (.putJson (responseKey r.auth.tenant taskId)
    (.obj [("status", .null), ("body", .null), ("pending", .bool true)]) I.responseTtlSeconds)
  let now : Time ← askAccept .now
  let token ← callbackToken r
  insertTask I r bucket (I.newTask r taskId bucket now token)

/-- `accept_create`. -/
def acceptCreate : AcceptHandler AcceptResult := do
  let decision : SlotDecision ← askAccept (.tryAcquire r.auth.channel)
  if ¬ decision.granted then Prog.raise (.acceptError 429 "accept rate limit exceeded")
  else do
    let depth : ℕ ← askAccept (.depth "submit:default")
    if I.maxDepth ≤ depth then Prog.raise (.acceptError 503 "queue submit:default saturated")
    else do
      let now : Time ← askAccept .utcnow
      let bucket := windowBucket now (I.window r)
      match ← askAccept (.findByIdempotency (I.idem r).key bucket) with
      | some existing => replayOrConflict existing (I.idem r).bodyDigest
      | none => acceptNew I r bucket

/-- The answer to an exception: an `AcceptError` has its own, the application has one for the
rest. -/
def answerOf : Exn → CreateAnswer
  | .acceptError status detail => .refused status detail
  | _ => .internalError

/-- `async_dispatch` of a create request. -/
def dispatchCreate : AcceptHandler Unit := do
  let answer ← Prog.tryCatch
    (do let result ← acceptCreate I r
        pure (CreateAnswer.accepted result))
    fun x => pure (answerOf x)
  askAccept (.respond answer)

end Create

/-! ### What an acceptance asks for -/

section Asked

variable {I : Intake} {r : CreateRequest} {bad : AcceptOp → Prop}

/-- The operations that write something of a new task. -/
def AcceptOp.writesNew : AcceptOp → Bool
  | .putJson _ _ _ => true
  | .insert _ => true
  | .putCredential _ _ _ => true
  | _ => false

/-- None of the operations an acceptance can ask for is bad. -/
structure Spared (I : Intake) (r : CreateRequest) (bad : AcceptOp → Prop) : Prop where
  others : ∀ o : AcceptOp, o.writesNew = false → ¬ bad o
  body : ∀ taskId, ¬ bad (.putJson (requestKey r.auth.tenant taskId) (.obj r.body) I.bodyTtlSeconds)
  response : ∀ taskId payload,
    ¬ bad (.putJson (responseKey r.auth.tenant taskId) payload I.responseTtlSeconds)
  row : ∀ taskId bucket now token, ¬ bad (.insert (I.newTask r taskId bucket now token))
  credential : ∀ taskId bearer, ¬ bad (.putCredential taskId bearer I.credentialTtlSeconds)

theorem Spared.replayOrConflict (h : Spared I r bad) (existing : AsyncTask) (digest : String) :
    (replayOrConflict existing digest).Avoids bad :=
  .ite (.raise _) (.bind (.tryCatch (.perform (h.others _ rfl)) fun _ => .pure _) fun _ => .pure _)

theorem Spared.acceptInserted (h : Spared I r bad) (taskId : String) :
    (acceptInserted I r taskId).Avoids bad := by
  have kept : (keepCredential I r taskId).Avoids bad := by
    unfold keepCredential
    refine .ite ?_ (.pure ())
    cases nonEmpty r.auth.bearer with
    | none => exact .pure ()
    | some bearer => exact .perform (h.credential taskId bearer)
  refine .bind kept fun _ => .bind (.perform (h.others _ rfl)) fun _ => .ite ?_ ?_
  · exact .bind (.perform (h.others _ rfl)) fun _ => .pure _
  · exact .bind (.perform (h.others _ rfl)) fun _ => .pure _

theorem Spared.acceptNew (h : Spared I r bad) (bucket : ℤ) :
    (acceptNew I r bucket).Avoids bad := by
  have token : (callbackToken r).Avoids bad :=
    .ite (.bind (.perform (h.others _ rfl)) fun _ => .pure _) (.pure _)
  refine .bind (.perform (h.others _ rfl)) fun taskId => .bind (.perform (h.body taskId)) fun _ =>
    .bind (.perform (h.response taskId _)) fun _ => .bind (.perform (h.others _ rfl)) fun now =>
    .bind token fun token => .bind (.perform (h.row taskId bucket now token)) fun _ =>
    .ite (h.acceptInserted _) (.bind (.perform (h.others _ rfl)) fun winner => ?_)
  cases winner with
  | none => exact .raise _
  | some winner => exact h.replayOrConflict winner _

theorem Spared.acceptCreate (h : Spared I r bad) : (acceptCreate I r).Avoids bad := by
  refine .bind (.perform (h.others _ rfl)) fun _ => .ite (.raise _)
    (.bind (.perform (h.others _ rfl)) fun _ => .ite (.raise _)
      (.bind (.perform (h.others _ rfl)) fun _ =>
        .bind (.perform (h.others _ rfl)) fun existing => ?_))
  cases existing with
  | none => exact h.acceptNew _
  | some existing => exact h.replayOrConflict existing _

theorem Spared.dispatchCreate (h : Spared I r bad) : (dispatchCreate I r).Avoids bad :=
  .bind (.tryCatch (.bind h.acceptCreate fun _ => .pure _) fun _ => .pure _)
    fun _ => .perform (h.others _ rfl)

/-- A request that meets no limit stores its body, and comes to its insert. -/
theorem asks_insert (hdepth : 0 < I.maxDepth) :
    ∃ taskId bucket now token,
      (acceptCreate I r).Asks (.insert (I.newTask r taskId bucket now token)) ∧
      (acceptCreate I r).Asks
        (.putJson (requestKey r.auth.tenant taskId) (.obj r.body) I.bodyTtlSeconds) := by
  let bucket := windowBucket 0 (I.window r)
  let token := if r.template.capabilities.callback then some "" else none
  -- the request passes its limits, and nobody holds its key
  have reaches : ∀ {o}, (acceptNew I r bucket).Asks o → (acceptCreate I r).Asks o := by
    intro o ho
    refine Prog.asks_perform_bind (⟨true, none⟩ : SlotDecision) ?_
    simp only [not_true_eq_false, if_false]
    refine Prog.asks_perform_bind (0 : ℕ) ?_
    rw [if_neg (by omega)]
    exact Prog.asks_perform_bind (0 : Time) (Prog.asks_perform_bind none ho)
  refine ⟨"", bucket, 0, token, reaches ?_, reaches (Prog.asks_perform_bind "" (.inl rfl))⟩
  refine Prog.asks_perform_bind "" (Prog.asks_perform_bind () (Prog.asks_perform_bind ()
    (Prog.asks_perform_bind (0 : Time) ?_)))
  rw [callbackToken]
  unfold token
  split
  · exact Or.inr ⟨.ok "", Or.inl rfl⟩
  · exact Or.inl rfl

end Asked

end AsyncGateway
