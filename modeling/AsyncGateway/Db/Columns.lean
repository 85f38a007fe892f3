import AsyncGateway.Db.Trajectory

/-!
# Db — the columns a write sets

The columns each operation of the DAO assigns, beside the status and the result reference
(`DaoOp.assigned`), and the row it leaves, said once (`DaoOp.assigned_run`).  A column that an
operation does not assign keeps its value (`DaoOp.column_run`).
-/

namespace AsyncGateway

open TaskStatus

variable {now : Time} {row row' : AsyncTask}

theorem forall_mem_ifSome {α : Type} {x : Option α} {f : α → List Assign} {p : Assign → Prop} :
    (∀ a ∈ ifSome x f, p a) ↔ ∀ y, x = some y → ∀ a ∈ f y, p a := by
  cases x <;> simp [ifSome]

/-- What `advance` assigns: the values of its caller, and two columns of its own. -/
theorem mem_advanceValues {dst : TaskStatus} {values : List Assign} {a : Assign}
    (h : a ∈ advanceValues now dst values) :
    a ∈ values ∨ a = .finishedAt (some now) ∨ a = .nextPollAt none := by
  have added : ∀ {vs : List Assign} {p : Assign → Bool} {b : Assign}, a ∈ setDefault vs p b →
      a ∈ vs ∨ a = b := by
    intro vs p b ha
    unfold setDefault at ha
    split at ha
    · exact .inl ha
    · exact (List.mem_append.mp ha).imp id List.mem_singleton.mp
  have finished : ∀ {vs : List Assign} {c : Prop} [Decidable c],
      a ∈ (if c then setDefault vs Assign.isFinishedAt (.finishedAt (some now)) else vs) →
      a ∈ vs ∨ a = .finishedAt (some now) := by
    intro vs c _ ha
    split at ha
    · exact added ha
    · exact .inl ha
  have polled : ∀ {vs : List Assign} {c d : Prop} [Decidable c] [Decidable d],
      a ∈ (if c then
        if d then setDefault vs Assign.isNextPollAt (.nextPollAt none) else vs else vs) →
      a ∈ vs ∨ a = .nextPollAt none := by
    intro vs c d _ _ ha
    split at ha
    · split at ha
      · exact added ha
      · exact .inl ha
    · exact .inl ha
  rcases polled h with h | h
  · rcases finished h with h | h
    · exact (finished h).imp id .inl
    · exact .inr (.inl h)
  · exact .inr (.inr h)

/-- The row with a status and a result reference. -/
def AsyncTask.withOutcome (row : AsyncTask) (s : TaskStatus) (ref : Option String) : AsyncTask :=
  { row with status := s, resultRef := ref }

namespace DaoOp

/-- The columns an operation sets, beside the status and the result reference. -/
def assigned (now : Time) : DaoOp → List Assign
  | .markSubmitIntent startedAt =>
      [.submitStartedAt (some (startedAt.getD now)), .attemptsIncremented]
  | .markSubmitted upstreamTaskId rawStatus snapshot nextPollAt startedAt =>
      [.upstreamTaskId (some upstreamTaskId), .rawStatus rawStatus, .statusSnapshot snapshot,
        .statusSnapshotAt (some now), .startedAt (some (startedAt.getD now)),
        .nextPollAt (some nextPollAt), .errorCode none, .errorMessage none]
  | .advance dst _ values => advanceValues now dst values
  | .setCancelRequested => [.cancelRequested true, .cancelRequestedAt (some now)]
  | .cancelImmediatelyAfterSubmit => [.finishedAt (some now), .nextPollAt none]
  | .setResultRef _ summary degraded => [.resultSummary summary, .resultDegraded degraded]
  | .scheduleNextPoll nextPollAt => [.nextPollAt (some nextPollAt)]
  | .recordPollResult snapshot rawStatus nextPollAt _ =>
      [.statusSnapshot snapshot, .statusSnapshotAt (some now), .rawStatus rawStatus,
        .pollCountIncremented, .lastPolledAt (some now)] ++
        ifSome nextPollAt (fun t => [.nextPollAt (some t)])
  | .markFailure _ errorCode errorMessage retryable nextPollAt snapshot =>
      [.errorCode (some errorCode), .errorMessage errorMessage, .retryable (some retryable),
        .nextPollAt nextPollAt] ++
        ifSome snapshot (fun doc => [.statusSnapshot (some doc), .statusSnapshotAt (some now)])
  | .enterUnknown errorCode errorMessage _ =>
      advanceValues now submitUnknown [.errorCode (some errorCode), .errorMessage errorMessage,
        .unknownSince (some now), .nextPollAt (some now)]
  | .relocateCompensate upstreamTaskId target rawStatus snapshot nextPollAt note =>
      advanceValues now target
        (relocateValues now upstreamTaskId target rawStatus snapshot nextPollAt note)
  | .leaseDispatch leaseSeconds _ => [.nextPollAt (some (now + max 1 leaseSeconds))]
  | .releaseSubmitIntent _ nextPollAt decrementAttempts errorCode errorMessage retryable attributes
        newDeadlineAt =>
      releaseValues nextPollAt decrementAttempts errorCode errorMessage retryable attributes
        newDeadlineAt
  | .noteAttribute read attributes =>
      [.attributes (some (Json.update (read.getD []) attributes))]
  | .scheduleTransferRetry nextPollAt attempts =>
      [.nextPollAt (some nextPollAt), .attributes (some [("transfer_attempts", .int attempts)])]
  | .markResultUnavailable detail =>
      [.resultDegraded (some ["transfer_failed"]), .errorCode (some .transferFailed),
        .errorMessage (some (String.ofList (detail.toList.take 500))), .nextPollAt none]

/-- The row an operation leaves: its columns, and perhaps another status or result reference. -/
theorem assigned_run {op : DaoOp} (h : op.run now row = .ok (some row')) :
    ∃ s ref, row' = (assign (row.touch now) (op.assigned now)).withOutcome s ref := by
  have of_cas : ∀ {expected : List TaskStatus} {values : List Assign} {extraWhere : Bool},
      cas now row expected (cols values) extraWhere = some row' →
      ∃ s ref, row' = (assign (row.touch now) values).withOutcome s ref := by
    intro expected values extraWhere hcas
    obtain ⟨-, -, rfl⟩ := cas_eq_some.mp hcas
    rw [foldl_cols]
    exact ⟨_, _, rfl⟩
  have of_advance : ∀ {dst : TaskStatus} {expected : Option (List TaskStatus)}
      {values : List Assign}, AsyncGateway.advance now row dst expected values = .ok (some row') →
      ∃ s ref,
        row' = (assign (row.touch now) (advanceValues now dst values)).withOutcome s ref := by
    intro dst expected values hadv
    obtain ⟨-, -, rfl⟩ := advance_eq_some hadv
    exact ⟨_, _, rfl⟩
  cases op with
  | advance dst expected values => exact of_advance h
  | enterUnknown code message expected =>
      rw [run] at h
      exact of_advance h
  | relocateCompensate upstreamTaskId target rawStatus snapshot nextPollAt note =>
      rw [run] at h
      exact of_advance h
  | markSubmitted upstreamTaskId rawStatus snapshot nextPollAt startedAt =>
      obtain ⟨-, -, rfl⟩ := cas_eq_some.mp (Except.ok.inj h)
      rw [List.foldl_cons, foldl_cols]
      exact ⟨_, _, rfl⟩
  | cancelImmediatelyAfterSubmit =>
      obtain ⟨-, -, rfl⟩ := cas_eq_some.mp (Except.ok.inj h)
      rw [List.foldl_cons, foldl_cols]
      exact ⟨_, _, rfl⟩
  | setResultRef resultRef summary degraded =>
      obtain ⟨-, -, rfl⟩ := cas_eq_some.mp (Except.ok.inj h)
      rw [List.foldl_cons, foldl_cols]
      exact ⟨_, _, rfl⟩
  | _ => exact of_cas (Except.ok.inj h)

end DaoOp

/-- What a row shows in a column, beside the status and the result reference. -/
structure Column (β : Type) where
  get : AsyncTask → β
  sets : Assign → Bool
  touch : ∀ row now, get (AsyncTask.touch row now) = get row
  outcome : ∀ row s ref, get (AsyncTask.withOutcome row s ref) = get row
  apply : ∀ row a, sets a = false → get (a.apply row) = get row

theorem Column.assign {β : Type} (c : Column β) {values : List Assign}
    (h : ∀ a ∈ values, c.sets a = false) : c.get (assign row values) = c.get row :=
  assign_frame (fun a ha row => c.apply row a (h a ha)) row

/-- **A column that an operation does not assign keeps its value.** -/
theorem DaoOp.column_run {β : Type} (c : Column β) {op : DaoOp}
    (h : op.run now row = .ok (some row')) (hv : ∀ a ∈ op.assigned now, c.sets a = false) :
    c.get row' = c.get row := by
  obtain ⟨s, ref, rfl⟩ := DaoOp.assigned_run h
  rw [c.outcome, c.assign hv, c.touch]

end AsyncGateway
