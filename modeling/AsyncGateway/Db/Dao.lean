import AsyncGateway.Db.Models

/-!
# Db — the conditional writers

The write operations of `TaskDAO` on one task row (`DaoOp`), each one atomic conditional `UPDATE`:
`DaoOp.run` is the row afterwards, `none` where the condition does not hold and the operation
returns `False`, or the transition error it raises.
-/

namespace AsyncGateway

open TaskStatus

/-- `_cas`: the update, where the status is expected and the other conditions hold. -/
def cas (now : Time) (row : AsyncTask) (expected : List TaskStatus) (values : List Write)
    (extraWhere : Bool) : Option AsyncTask :=
  if expected = [] then none
  else if row.status ∈ expected ∧ extraWhere = true then
    some (values.foldl Write.apply (row.touch now))
  else none

/-- The columns of `values`, as what a writer sets. -/
def cols (values : List Assign) : List Write := values.map .col

def assertTransitions (dst : TaskStatus) : List TaskStatus → Except TransitionError Unit
  | [] => .ok ()
  | src :: sources => (assertTransition src dst).bind fun _ => assertTransitions dst sources

/-- `payload.setdefault(column, ..)`. -/
def setDefault (values : List Assign) (is : Assign → Bool) (a : Assign) : List Assign :=
  if values.any is then values else values ++ [a]

/-- What `advance` adds to the values of its caller. -/
def advanceValues (now : Time) (dst : TaskStatus) (values : List Assign) : List Assign :=
  let values :=
    if dst ∈ internalTerminal ∨ dst = succeeded then
      setDefault values Assign.isFinishedAt (.finishedAt (some now))
    else values
  let values :=
    if dst = cancelled then setDefault values Assign.isFinishedAt (.finishedAt (some now))
    else values
  if dst ≠ succeeded then
    if dst ∈ internalTerminal ∨ dst = cancelled then
      setDefault values Assign.isNextPollAt (.nextPollAt none)
    else values
  else values

/-- `advance`: a transition of the whitelist, from the expected states.  Without any it is from
every state the whitelist has an edge from. -/
def advance (now : Time) (row : AsyncTask) (dst : TaskStatus) (expected : Option (List TaskStatus))
    (values : List Assign) : Except TransitionError (Option AsyncTask) := do
  let sources ← match expected with
    | none => .ok (TaskStatus.all.filter fun s => dst ∈ allowedTargets s)
    | some sources => do
        assertTransitions dst sources
        .ok sources
  .ok (cas now row sources (cols (advanceValues now dst values) ++ [.status dst]) true)

/-- A write operation of `TaskDAO`, with its arguments. -/
inductive DaoOp : Type where
  | markSubmitIntent (startedAt : Option Time)
  | markSubmitted (upstreamTaskId : String) (rawStatus : Option String) (snapshot : Option Json)
      (nextPollAt : Time) (startedAt : Option Time)
  | advance (dst : TaskStatus) (expected : Option (List TaskStatus)) (values : List Assign)
  | setCancelRequested
  | cancelImmediatelyAfterSubmit
  | setResultRef (resultRef : String) (summary : Option Json) (degraded : Option (List String))
  | scheduleNextPoll (nextPollAt : Time)
  | recordPollResult (snapshot : Option Json) (rawStatus : Option String)
      (nextPollAt : Option Time) (expected : List TaskStatus)
  | markFailure (expected : List TaskStatus) (errorCode : ErrorCode)
      (errorMessage : Option String) (retryable : Bool) (nextPollAt : Option Time)
      (snapshot : Option Json)
  | enterUnknown (errorCode : ErrorCode) (errorMessage : Option String)
      (expected : Option (List TaskStatus))
  | relocateCompensate (upstreamTaskId : Option String) (target : TaskStatus)
      (rawStatus : Option String) (snapshot : Option Json) (nextPollAt : Option Time)
      (note : Option String)
  | leaseDispatch (leaseSeconds : Seconds) (expected : List TaskStatus)
  | releaseSubmitIntent (expected : List TaskStatus) (nextPollAt : Time)
      (decrementAttempts : Bool) (errorCode : Option ErrorCode) (errorMessage : Option String)
      (retryable : Option Bool) (attributes : Option Json.Fields) (newDeadlineAt : Option Time)
  /-- The `UPDATE` of `note_attribute`; `read` is what its `SELECT` found in the column. -/
  | noteAttribute (read : Option Json.Fields) (attributes : Json.Fields)
  | scheduleTransferRetry (nextPollAt : Time) (attempts : ℤ)
  | markResultUnavailable (detail : String)

/-- `if x is not None: values[..] = x`. -/
def ifSome {α : Type} (x : Option α) (f : α → List Assign) : List Assign := (x.map f).getD []

/-- A string that counts as given: neither `None` nor empty. -/
def nonEmpty (x : Option String) : Option String := x.filter (· ≠ "")

theorem nonEmpty_eq_some {x : Option String} {s : String} :
    nonEmpty x = some s ↔ x = some s ∧ s ≠ "" := by
  cases x <;> simp [nonEmpty, Option.filter_eq_some_iff]

/-- The columns `relocate_compensate` sets. -/
def relocateValues (now : Time) (upstreamTaskId : Option String) (target : TaskStatus)
    (rawStatus : Option String) (snapshot : Option Json) (nextPollAt : Option Time)
    (note : Option String) : List Assign :=
  [.lastConfirmedAt (some now), .confirmAttemptsIncremented] ++
    ifSome (nonEmpty upstreamTaskId) (fun id => [.upstreamTaskId (some id)]) ++
    ifSome rawStatus (fun raw => [.rawStatus (some raw)]) ++
    ifSome snapshot (fun doc => [.statusSnapshot (some doc), .statusSnapshotAt (some now)]) ++
    ifSome nextPollAt (fun t => [.nextPollAt (some t)]) ++
    ifSome (nonEmpty note) (fun n => [.attributes (some [("compensate_note", .str n)])]) ++
    (if target = upstreamSubmitted then [.unknownSince none] else [])

/-- The columns `release_submit_intent` sets. -/
def releaseValues (nextPollAt : Time) (decrementAttempts : Bool) (errorCode : Option ErrorCode)
    (errorMessage : Option String) (retryable : Option Bool) (attributes : Option Json.Fields)
    (newDeadlineAt : Option Time) : List Assign :=
  [.submitStartedAt none, .nextPollAt (some nextPollAt), .errorCode errorCode,
    .errorMessage errorMessage, .retryable retryable] ++
    ifSome newDeadlineAt (fun t => [.deadlineAt (some t)]) ++
    (if decrementAttempts then [.attemptsDecremented] else []) ++
    ifSome (attributes.filter (· ≠ [])) (fun fs => [.attributes (some fs)])

/-- `expected or [accepted]`. -/
def unknownSources : Option (List TaskStatus) → List TaskStatus
  | none => [accepted]
  | some [] => [accepted]
  | some sources => sources

namespace DaoOp

/-- The row after the operation, `none` where it matches no row. -/
def run (now : Time) (row : AsyncTask) : DaoOp → Except TransitionError (Option AsyncTask)
  | .markSubmitIntent startedAt =>
      .ok <| cas now row [accepted]
        (cols [.submitStartedAt (some (startedAt.getD now)), .attemptsIncremented])
        row.submitStartedAt.isNone
  | .markSubmitted upstreamTaskId rawStatus snapshot nextPollAt startedAt =>
      .ok <| cas now row [accepted]
        (.status upstreamSubmitted :: cols
          [.upstreamTaskId (some upstreamTaskId), .rawStatus rawStatus, .statusSnapshot snapshot,
            .statusSnapshotAt (some now), .startedAt (some (startedAt.getD now)),
            .nextPollAt (some nextPollAt), .errorCode none, .errorMessage none])
        row.submitStartedAt.isSome
  | .advance dst expected values => AsyncGateway.advance now row dst expected values
  | .setCancelRequested =>
      .ok <| cas now row cancelPreconditions
        (cols [.cancelRequested true, .cancelRequestedAt (some now)]) true
  | .cancelImmediatelyAfterSubmit =>
      .ok <| cas now row [upstreamSubmitted, inProgress]
        (.status cancelled :: cols [.finishedAt (some now), .nextPollAt none]) row.cancelRequested
  | .setResultRef resultRef summary degraded =>
      .ok <| cas now row [succeeded]
        (.resultRef resultRef :: cols [.resultSummary summary, .resultDegraded degraded])
        row.resultRef.isNone
  | .scheduleNextPoll nextPollAt =>
      .ok <| cas now row activeStatuses (cols [.nextPollAt (some nextPollAt)]) true
  | .recordPollResult snapshot rawStatus nextPollAt expected =>
      .ok <| cas now row expected
        (cols ([.statusSnapshot snapshot, .statusSnapshotAt (some now), .rawStatus rawStatus,
            .pollCountIncremented, .lastPolledAt (some now)] ++
          ifSome nextPollAt (fun t => [.nextPollAt (some t)]))) true
  | .markFailure expected errorCode errorMessage retryable nextPollAt snapshot =>
      .ok <| cas now row expected
        (cols ([.errorCode (some errorCode), .errorMessage errorMessage,
            .retryable (some retryable), .nextPollAt nextPollAt] ++
          ifSome snapshot (fun doc =>
            [.statusSnapshot (some doc), .statusSnapshotAt (some now)]))) true
  | .enterUnknown errorCode errorMessage expected =>
      AsyncGateway.advance now row submitUnknown (some (unknownSources expected))
        [.errorCode (some errorCode), .errorMessage errorMessage, .unknownSince (some now),
          .nextPollAt (some now)]
  | .relocateCompensate upstreamTaskId target rawStatus snapshot nextPollAt note =>
      AsyncGateway.advance now row target (some [submitUnknown])
        (relocateValues now upstreamTaskId target rawStatus snapshot nextPollAt note)
  | .leaseDispatch leaseSeconds expected =>
      .ok <| cas now row expected (cols [.nextPollAt (some (now + max 1 leaseSeconds))])
        (row.nextPollAt.any fun t => decide (t ≤ now))
  | .releaseSubmitIntent expected nextPollAt decrementAttempts errorCode errorMessage retryable
        attributes newDeadlineAt =>
      .ok <| cas now row expected
        (cols (releaseValues nextPollAt decrementAttempts errorCode errorMessage retryable
          attributes newDeadlineAt)) true
  | .noteAttribute read attributes =>
      .ok <| cas now row activeStatuses
        (cols [.attributes (some (Json.update (read.getD []) attributes))]) true
  | .scheduleTransferRetry nextPollAt attempts =>
      .ok <| cas now row [succeeded]
        (cols [.nextPollAt (some nextPollAt),
          .attributes (some [("transfer_attempts", .int attempts)])])
        row.resultRef.isNone
  | .markResultUnavailable detail =>
      .ok <| cas now row [succeeded]
        (cols [.resultDegraded (some ["transfer_failed"]), .errorCode (some .transferFailed),
          .errorMessage (some (String.ofList (detail.toList.take 500))), .nextPollAt none])
        row.resultRef.isNone

/-- What the caller sees of the operation, and the row it leaves. -/
def exec (now : Time) (op : DaoOp) (row : AsyncTask) : Except TransitionError Bool × AsyncTask :=
  match op.run now row with
  | .ok (some row') => (.ok true, row')
  | .ok none => (.ok false, row)
  | .error e => (.error e, row)

end DaoOp

end AsyncGateway
