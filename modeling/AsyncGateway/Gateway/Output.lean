import AsyncGateway.Runtime.Container

/-!
# Gateway — the query answer

What a query shows of a task: the snapshot of the upstream's own answer, with the status field, the
result field and the error field rewritten where the gateway knows better
(`buildNativeQueryResponse`).
-/

namespace AsyncGateway

open TaskStatus

variable (C : Container)

/-- `native_snapshot`. -/
def nativeSnapshot (task : AsyncTask) : Json := task.statusSnapshot.getD (.obj [])

def pendingPlaceholderStatus : String := "queued"

/-- `_effective_status_value`: the status to show, and whether it has to be written. -/
def effectiveStatusValue (task : AsyncTask) (t : ResolvedTemplate) : String × Bool :=
  let native := task.rawStatus
  let failureValues := t.terminal.failure ++ t.terminal.expired
  if task.status = succeeded then
    match native.filter (· ∈ t.terminal.success) with
    | some native => (native, false)
    | none => (t.terminal.success.headD "succeeded", true)
  else if task.status = cancelled then
    match native.filter (· ∈ failureValues) with
    | some native => (native, false)
    | none => (t.effectiveFailureStatus, true)
  else if isInternalTerminal task.status then
    match native.filter (· ∈ failureValues) with
    | some native =>
        if task.status = timeout ∧ native ∈ t.terminal.expired then (native, false)
        else (t.effectiveFailureStatus, true)
    | none => (t.effectiveFailureStatus, true)
  else
    match native with
    | none => (pendingPlaceholderStatus, true)
    | some native => (native, false)

/-- The status field of the answer: written where it has to be, or is not there. -/
def showStatus (task : AsyncTask) (t : ResolvedTemplate) (snapshot : Json.Fields) :
    Except Exn Json.Fields := do
  let (value, needsRewrite) := effectiveStatusValue task t
  -- an exception of this reading is swallowed
  let present : Bool := match tryExtract (.obj snapshot) t.statusField with
    | .ok found => found.isSome
    | .error _ => false
  if needsRewrite ∨ ¬ present then
    ExpressionError.lift (setPathOnDoc snapshot t.statusField (.str value))
  else .ok snapshot

/-- The reason shown for a failure. -/
def failureDetail (task : AsyncTask) (t : ResolvedTemplate) : String :=
  let detail := Text.strip (task.errorMessage.getD "").toList
  if detail = [] then t.effectiveFailureErrorCode else String.ofList detail

/-- The result field and the error field of the answer. -/
def showResult (task : AsyncTask) (t : ResolvedTemplate) (resultUrl : Option String)
    (snapshot : Json.Fields) : Except Exn Json.Fields := do
  if task.status = succeeded then
    if t.resultPolicy.mode = .store ∧ C.hasResultStore then do
      let shown := match resultUrl with
        | some url => Json.str url
        | none => .null
      let snapshot ← ExpressionError.lift (setPathOnDoc snapshot t.resultLocation shown)
      match resultUrl, snapshot.lookup "_result_hint" with
      | none, none => .ok (Json.put snapshot "_result_hint" (.str "unavailable_or_pending"))
      | _, _ => .ok snapshot
    else .ok snapshot
  else if isInternalTerminal task.status ∨ task.status = cancelled then do
    let snapshot ← match nonEmpty t.terminal.errorField with
      | some errorField =>
          ExpressionError.lift
            (setPathOnDoc snapshot errorField (.str (failureDetail task t)))
      | none => .ok snapshot
    if t.resultPolicy.mode = .store then
      ExpressionError.lift (setPathOnDoc snapshot t.resultLocation .null)
    else .ok snapshot
  else .ok snapshot

/-- `build_native_query_response`. -/
def buildNativeQueryResponse (task : AsyncTask) (t : ResolvedTemplate)
    (resultUrl : Option String) : Except Exn Json :=
  match nativeSnapshot task with
  | .obj snapshot => do
      let snapshot ← showStatus task t snapshot
      let snapshot ← showResult C task t resultUrl snapshot
      .ok (.obj snapshot)
  | other => .ok other

/-- The value a client reads at the status field of the answer, if there is an answer and the
field is in it. -/
def shownStatus (task : AsyncTask) (t : ResolvedTemplate) (resultUrl : Option String) :
    Option Json :=
  match buildNativeQueryResponse C task t resultUrl, compileExpression t.statusField with
  | .ok answer, .ok path => answer.follow path
  | _, _ => none

/-- `response_headers`. -/
def responseHeaders (task : AsyncTask) (refreshInterval : ℚ) : List (String × String) :=
  [("X-AG-Task-Id", task.taskId), ("X-AG-Internal-Status", task.status.value),
    ("X-AG-Envelope", "1")] ++
  if task.status = succeeded ∨ task.status = pollUnrecognized ∨ isInternalTerminal task.status then
    [("X-AG-Snapshot", "terminal")]
  else
    [("X-AG-Snapshot", "cached"), ("Retry-After", toString (max 1 refreshInterval.floor))]

end AsyncGateway
