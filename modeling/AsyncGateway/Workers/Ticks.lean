import AsyncGateway.Tasks.Runtime

/-!
# Workers — the ticks of the inspector and the scheduler, and the closing of a task

What a tick does to one task: the selection reads the row, the write and the message of the
selected task are one transaction.
-/

namespace AsyncGateway

open TaskStatus TaskRuntime
open Interleave (Prog)

/-- Read the task, and act on it where it is selected. -/
def selected (select : Time → AsyncTask → Bool) (act : AsyncTask → Handler Unit) :
    Handler Unit := do
  let now ← now_
  match ← loadTask with
  | none => pure ()
  | some task => if select now task then act task else pure ()

/-- `stalled_accepted`. -/
def stalledAccepted (stallSeconds : Seconds) (now : Time) (task : AsyncTask) : Bool :=
  decide (task.status = accepted ∧ task.updatedAt ≤ now - stallSeconds)

/-- `scan_accepted_stalls`: a task that stalls before its intent is submitted again, one that
stalls with it is in doubt. -/
def scanAcceptedStalls (stallSeconds : Seconds) : Handler Unit :=
  selected (stalledAccepted stallSeconds) fun task =>
    match task.submitStartedAt with
    | none => enqueue "submit:default" "submit_upstream"
    | some _ => do
        let now ← now_
        let _ ← ask (.apply (.advance submitUnknown (some [accepted])
            [.errorCode (some .transport),
              .errorMessage (some "accepted stalled with submit intent (worker crash window)"),
              .unknownSince (some now), .nextPollAt (some now)])
          (some { queue := "compensate:default", name := "compensate_orphan" }))
        pure ()

/-- `overdue_deadlines`. -/
def overdueDeadline (now : Time) (task : AsyncTask) : Bool :=
  decide (task.status ∈ activeStatuses) && task.deadlineAt.any fun d => decide (d ≤ now)

/-- `scan_deadlines`; `message` is the text of the deadline. -/
def scanDeadlines (message : String) : Handler Unit :=
  selected overdueDeadline fun task => do
    let now ← now_
    let _ ← applyOp (.advance timeout (some [task.status])
      [.errorCode (some .timeout), .errorMessage (some message), .finishedAt (some now),
        .nextPollAt none])
    pure ()

/-- `over_lifetime_unknown`, or one of `unknown_tasks` whose channel is over its limit. -/
def unboundedUnknown (maxLifetime : Seconds) (overLimit : Bool) (now : Time)
    (task : AsyncTask) : Bool :=
  decide (task.status ∈ [submitUnknown, pollUnrecognized]) &&
    ((task.unknownSince.any fun t => decide (t ≤ now - maxLifetime)) ||
      (overLimit && task.nextPollAt.any fun t => decide (t ≤ now)))

/-- `bound_unknowns`. -/
def boundUnknowns (maxLifetime : Seconds) (overLimit : Bool) : Handler Unit :=
  selected (unboundedUnknown maxLifetime overLimit) fun task => do
    let _ ← applyOp (.advance deadAwaitingConfirm (some [task.status])
      [.errorCode (some .unknownExhausted),
        .errorMessage (some "unknown bounded: exceeded channel limit or max lifetime"),
        .nextPollAt none])
    pure ()

/-- `stalled_active`. -/
def stalledActive (stallSeconds : Seconds) (now : Time) (task : AsyncTask) : Bool :=
  decide (task.status ∈ [upstreamSubmitted, inProgress] ∧ task.updatedAt ≤ now - stallSeconds) &&
    task.nextPollAt.all fun t => decide (t ≤ now - stallSeconds)

/-- `reconcile_orphans`: a task without heartbeat is in doubt. -/
def reconcileOrphans (stallSeconds : Seconds) : Handler Unit :=
  selected (stalledActive stallSeconds) fun task => do
    let now ← now_
    let _ ← ask (.apply (.advance submitUnknown (some [task.status])
        [.errorCode (some .unknownExhausted),
          .errorMessage (some "active task stalled: heartbeat missing"),
          .unknownSince (some now), .nextPollAt (some now)])
      (some { queue := "compensate:default", name := "compensate_orphan" }))
    pure ()

/-- `pending_transfers`. -/
def pendingTransfer (now : Time) (task : AsyncTask) : Bool :=
  decide (task.status = succeeded ∧ task.resultRef = none) &&
    task.nextPollAt.any fun t => decide (t ≤ now)

/-- `dispatch_pending_transfers`. -/
def dispatchPendingTransfers : Handler Unit :=
  selected pendingTransfer fun task =>
    let attempts := match (task.attributes.getD []).lookup "transfer_attempts" with
      | some (.int n) => n
      | _ => 1
    ask (.enqueue { queue := transferQueue, name := "store_result", attempt := some attempts })

/-! ### The scheduler -/

/-- `DISPATCH_BY_STATUS`. -/
def dispatchByStatus : TaskStatus → Option String
  | .upstreamSubmitted => some "poll_upstream"
  | .inProgress => some "poll_upstream"
  | .pollUnrecognized => some "poll_upstream"
  | .submitUnknown => some "compensate_orphan"
  | .failed => some "submit_upstream"
  | _ => none

/-- `due_for_dispatch`. -/
def dueForDispatch (now : Time) (task : AsyncTask) : Bool :=
  ((dispatchByStatus task.status).isSome ||
      decide (task.status = accepted) && task.submitStartedAt.isNone) &&
    task.nextPollAt.any fun t => decide (t ≤ now)

/-- `target_queue_and_name`, the poll queue by the pool of the template. -/
def targetQueueAndName (C : Container) (task : AsyncTask) : Option (String × String) :=
  let name := match dispatchByStatus task.status with
    | some name => some name
    | none =>
        if task.status = accepted ∧ task.submitStartedAt = none then some "submit_upstream"
        else none
  name.map fun name =>
    if name = "poll_upstream" then
      (pollQueue ((C.registry task.templateAlias task.templateVersion).elim "" (·.pool)), name)
    else if name = "submit_upstream" then ("submit:default", name)
    else if name = "compensate_orphan" then ("compensate:default", name)
    else ("finalize:default", name)

/-- `dispatch_due`. -/
def dispatchDue (C : Container) (leaseSeconds : Seconds) : Handler Unit :=
  selected dueForDispatch fun task =>
    match targetQueueAndName C task with
    | none => pure ()
    | some (queue, name) => do
        let _ ← ask (.apply (.leaseDispatch leaseSeconds [task.status])
          (some { queue := queue, name := name }))
        pure ()

/-! ### The operator -/

/-- `close_task`, once its approval is consumed. -/
def closeTask (reason : String) : Handler Unit := do
  match ← loadTask with
  | none => Prog.raise (.httpException 404 "task not found")
  | some task => do
      let now ← now_
      if ← applyOp (.advance dead (some [task.status])
          (([.errorCode (some .unknownExhausted),
            .errorMessage (some (String.ofList (reason.toList.take 500)))] : List Assign) ++
            [.finishedAt (some now), .nextPollAt none])) then
        audit { governance "task" task.taskId
          [("operation", .str "close"), ("reason", .str reason)] "人工关闭" with actor := "operator" }
      else Prog.raise (.httpException 409 "illegal transition from current state")

end AsyncGateway
