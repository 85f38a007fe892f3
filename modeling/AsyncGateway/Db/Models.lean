import AsyncGateway.Domain.Errors
import AsyncGateway.Lib.Json

/-!
# Db — the task row

The columns of `async_task` the modelled code reads or writes, and the assignments an `UPDATE`
makes to them.  The status and the result reference have no `Assign`: a caller's own values cannot
name them, only the writers of the DAO set them (`Write`).
-/

namespace AsyncGateway

structure AsyncTask where
  taskId : String
  idempotencyKey : String
  idempotencyBucket : ℤ
  tenant : String
  channel : String
  status : TaskStatus
  rowVersion : ℕ
  templateAlias : String
  templateVersion : ℕ
  upstreamTaskId : Option String
  attempts : ℕ
  maxAttempts : ℤ
  submitStartedAt : Option Time
  deadlineAt : Option Time
  callbackToken : Option String
  createReqRef : Option String
  createReqDigest : Option String
  resultRef : Option String
  resultSummary : Option Json
  resultDegraded : Option (List String)
  statusSnapshot : Option Json
  statusSnapshotAt : Option Time
  rawStatus : Option String
  errorCode : Option ErrorCode
  errorMessage : Option String
  retryable : Option Bool
  cancelRequested : Bool
  cancelRequestedAt : Option Time
  unknownSince : Option Time
  confirmAttempts : ℕ
  lastConfirmedAt : Option Time
  pollCount : ℕ
  nextPollAt : Option Time
  lastPolledAt : Option Time
  createdAt : Time
  updatedAt : Time
  startedAt : Option Time
  finishedAt : Option Time
  attributes : Option Json.Fields

/-- An assignment to a column, in the `values` of an `UPDATE`. -/
inductive Assign : Type where
  | tenant (v : String)
  | channel (v : String)
  | templateAlias (v : String)
  | templateVersion (v : ℕ)
  | upstreamTaskId (v : Option String)
  | attempts (v : ℕ)
  /-- `attempts + 1`. -/
  | attemptsIncremented
  /-- `CASE WHEN attempts - 1 > 0 THEN attempts - 1 ELSE 0 END`. -/
  | attemptsDecremented
  | maxAttempts (v : ℤ)
  | submitStartedAt (v : Option Time)
  | deadlineAt (v : Option Time)
  | callbackToken (v : Option String)
  | createReqRef (v : Option String)
  | createReqDigest (v : Option String)
  | resultSummary (v : Option Json)
  | resultDegraded (v : Option (List String))
  | statusSnapshot (v : Option Json)
  | statusSnapshotAt (v : Option Time)
  | rawStatus (v : Option String)
  | errorCode (v : Option ErrorCode)
  | errorMessage (v : Option String)
  | retryable (v : Option Bool)
  | cancelRequested (v : Bool)
  | cancelRequestedAt (v : Option Time)
  | unknownSince (v : Option Time)
  | confirmAttempts (v : ℕ)
  /-- `confirm_attempts + 1`. -/
  | confirmAttemptsIncremented
  | lastConfirmedAt (v : Option Time)
  | pollCount (v : ℕ)
  /-- `poll_count + 1`. -/
  | pollCountIncremented
  | nextPollAt (v : Option Time)
  | lastPolledAt (v : Option Time)
  | createdAt (v : Time)
  | startedAt (v : Option Time)
  | finishedAt (v : Option Time)
  | attributes (v : Option Json.Fields)

namespace Assign

def apply (row : AsyncTask) : Assign → AsyncTask
  | .tenant v => { row with tenant := v }
  | .channel v => { row with channel := v }
  | .templateAlias v => { row with templateAlias := v }
  | .templateVersion v => { row with templateVersion := v }
  | .upstreamTaskId v => { row with upstreamTaskId := v }
  | .attempts v => { row with attempts := v }
  | .attemptsIncremented => { row with attempts := row.attempts + 1 }
  | .attemptsDecremented =>
      { row with attempts := if 0 < row.attempts - 1 then row.attempts - 1 else 0 }
  | .maxAttempts v => { row with maxAttempts := v }
  | .submitStartedAt v => { row with submitStartedAt := v }
  | .deadlineAt v => { row with deadlineAt := v }
  | .callbackToken v => { row with callbackToken := v }
  | .createReqRef v => { row with createReqRef := v }
  | .createReqDigest v => { row with createReqDigest := v }
  | .resultSummary v => { row with resultSummary := v }
  | .resultDegraded v => { row with resultDegraded := v }
  | .statusSnapshot v => { row with statusSnapshot := v }
  | .statusSnapshotAt v => { row with statusSnapshotAt := v }
  | .rawStatus v => { row with rawStatus := v }
  | .errorCode v => { row with errorCode := v }
  | .errorMessage v => { row with errorMessage := v }
  | .retryable v => { row with retryable := v }
  | .cancelRequested v => { row with cancelRequested := v }
  | .cancelRequestedAt v => { row with cancelRequestedAt := v }
  | .unknownSince v => { row with unknownSince := v }
  | .confirmAttempts v => { row with confirmAttempts := v }
  | .confirmAttemptsIncremented => { row with confirmAttempts := row.confirmAttempts + 1 }
  | .lastConfirmedAt v => { row with lastConfirmedAt := v }
  | .pollCount v => { row with pollCount := v }
  | .pollCountIncremented => { row with pollCount := row.pollCount + 1 }
  | .nextPollAt v => { row with nextPollAt := v }
  | .lastPolledAt v => { row with lastPolledAt := v }
  | .createdAt v => { row with createdAt := v }
  | .startedAt v => { row with startedAt := v }
  | .finishedAt v => { row with finishedAt := v }
  | .attributes v => { row with attributes := v }

def isFinishedAt : Assign → Bool
  | .finishedAt _ => true
  | _ => false

def isNextPollAt : Assign → Bool
  | .nextPollAt _ => true
  | _ => false

/-- The columns that say who may submit: the intent, the attempts, the upstream id and the cancel
flag. -/
def ofSubmission : Assign → Bool
  | .upstreamTaskId _ => true
  | .attempts _ => true
  | .attemptsIncremented => true
  | .attemptsDecremented => true
  | .submitStartedAt _ => true
  | .cancelRequested _ => true
  | _ => false

/-- The columns that say which task the row is, and of which template. -/
def ofIdentity : Assign → Bool
  | .tenant _ => true
  | .channel _ => true
  | .templateAlias _ => true
  | .templateVersion _ => true
  | _ => false

/-- The columns a query answer is made from, beside the status. -/
def ofOutput : Assign → Bool
  | .statusSnapshot _ => true
  | .rawStatus _ => true
  | _ => false

end Assign

/-- What a writer of the DAO sets: a column, or the status or the result reference. -/
inductive Write : Type where
  | col (a : Assign)
  | status (s : TaskStatus)
  | resultRef (ref : String)

/-- What every update adds: the row version counts up, and the row is updated now. -/
def AsyncTask.touch (row : AsyncTask) (now : Time) : AsyncTask :=
  { row with rowVersion := row.rowVersion + 1, updatedAt := now }

def AsyncTask.withStatus (row : AsyncTask) (s : TaskStatus) : AsyncTask := { row with status := s }

@[simp] theorem AsyncTask.touch_status (row : AsyncTask) (now : Time) :
    (row.touch now).status = row.status := rfl

@[simp] theorem AsyncTask.touch_resultRef (row : AsyncTask) (now : Time) :
    (row.touch now).resultRef = row.resultRef := rfl

@[simp] theorem AsyncTask.withStatus_status (row : AsyncTask) (s : TaskStatus) :
    (row.withStatus s).status = s := rfl

@[simp] theorem AsyncTask.withStatus_resultRef (row : AsyncTask) (s : TaskStatus) :
    (row.withStatus s).resultRef = row.resultRef := rfl

def Write.apply (row : AsyncTask) : Write → AsyncTask
  | .col a => a.apply row
  | .status s => row.withStatus s
  | .resultRef ref => { row with resultRef := some ref }

/-- The assignments of an `UPDATE`, one after the other. -/
def assign (row : AsyncTask) (values : List Assign) : AsyncTask := values.foldl Assign.apply row

@[simp] theorem assign_nil (row : AsyncTask) : assign row [] = row := rfl

@[simp] theorem assign_cons (row : AsyncTask) (a : Assign) (values : List Assign) :
    assign row (a :: values) = assign (a.apply row) values := rfl

theorem assign_append (row : AsyncTask) (vs ws : List Assign) :
    assign row (vs ++ ws) = assign (assign row vs) ws := List.foldl_append

/-! ### What assignments leave alone -/

/-- What none of the assignments changes stays as it is. -/
theorem assign_frame {β : Type} {get : AsyncTask → β} {values : List Assign}
    (h : ∀ a ∈ values, ∀ row, get (a.apply row) = get row) (row : AsyncTask) :
    get (assign row values) = get row := by
  induction values generalizing row with
  | nil => rfl
  | cons a values ih =>
      rw [assign_cons, ih fun b hb => h b (List.mem_cons_of_mem _ hb)]
      exact h a List.mem_cons_self row

@[simp] theorem Assign.apply_status (row : AsyncTask) (a : Assign) :
    (a.apply row).status = row.status := by
  cases a <;> rfl

@[simp] theorem Assign.apply_resultRef (row : AsyncTask) (a : Assign) :
    (a.apply row).resultRef = row.resultRef := by
  cases a <;> rfl

@[simp] theorem assign_status (row : AsyncTask) (values : List Assign) :
    (assign row values).status = row.status :=
  assign_frame (fun a _ row => Assign.apply_status row a) row

@[simp] theorem assign_resultRef (row : AsyncTask) (values : List Assign) :
    (assign row values).resultRef = row.resultRef :=
  assign_frame (fun a _ row => Assign.apply_resultRef row a) row

/-- The columns that say who may submit. -/
structure Submission where
  submitStartedAt : Option Time
  attempts : ℕ
  upstreamTaskId : Option String
  cancelRequested : Bool

def AsyncTask.submission (row : AsyncTask) : Submission :=
  ⟨row.submitStartedAt, row.attempts, row.upstreamTaskId, row.cancelRequested⟩

/-- The columns a query answer is made from, beside the status. -/
structure Reported where
  statusSnapshot : Option Json
  rawStatus : Option String

def AsyncTask.reported (row : AsyncTask) : Reported := ⟨row.statusSnapshot, row.rawStatus⟩

@[simp] theorem AsyncTask.touch_submission (row : AsyncTask) (now : Time) :
    (row.touch now).submission = row.submission := rfl

@[simp] theorem AsyncTask.withStatus_submission (row : AsyncTask) (s : TaskStatus) :
    (row.withStatus s).submission = row.submission := rfl

@[simp] theorem AsyncTask.touch_reported (row : AsyncTask) (now : Time) :
    (row.touch now).reported = row.reported := rfl

@[simp] theorem AsyncTask.withStatus_reported (row : AsyncTask) (s : TaskStatus) :
    (row.withStatus s).reported = row.reported := rfl

theorem assign_submission {row : AsyncTask} {values : List Assign}
    (h : ∀ a ∈ values, a.ofSubmission = false) :
    (assign row values).submission = row.submission := by
  refine assign_frame ?_ row
  intro a ha row
  have hset := h a ha
  cases a <;> first | rfl | cases hset

/-- The template a row is of. -/
def AsyncTask.templateRef (row : AsyncTask) : String × ℕ := (row.templateAlias, row.templateVersion)

/-- Whose task a row is, and of which template. -/
structure Identity where
  tenant : String
  channel : String
  templateRef : String × ℕ

def AsyncTask.identity (row : AsyncTask) : Identity := ⟨row.tenant, row.channel, row.templateRef⟩

@[simp] theorem AsyncTask.touch_identity (row : AsyncTask) (now : Time) :
    (row.touch now).identity = row.identity := rfl

@[simp] theorem AsyncTask.withStatus_identity (row : AsyncTask) (s : TaskStatus) :
    (row.withStatus s).identity = row.identity := rfl

theorem assign_identity {row : AsyncTask} {values : List Assign}
    (h : ∀ a ∈ values, a.ofIdentity = false) :
    (assign row values).identity = row.identity := by
  refine assign_frame ?_ row
  intro a ha row
  have hset := h a ha
  cases a <;> first | rfl | cases hset

/-- What no two rows may share: the task id, the idempotency key with its bucket. -/
structure Keys where
  taskId : String
  idempotency : String × ℤ

def AsyncTask.keys (row : AsyncTask) : Keys :=
  ⟨row.taskId, row.idempotencyKey, row.idempotencyBucket⟩

@[simp] theorem AsyncTask.touch_keys (row : AsyncTask) (now : Time) :
    (row.touch now).keys = row.keys := rfl

@[simp] theorem AsyncTask.withStatus_keys (row : AsyncTask) (s : TaskStatus) :
    (row.withStatus s).keys = row.keys := rfl

@[simp] theorem Write.apply_keys (row : AsyncTask) (w : Write) : (w.apply row).keys = row.keys := by
  cases w with
  | col a => cases a <;> rfl
  | status s => rfl
  | resultRef ref => rfl

theorem foldl_apply_keys (row : AsyncTask) (values : List Write) :
    (values.foldl Write.apply row).keys = row.keys := by
  induction values generalizing row with
  | nil => rfl
  | cons w values ih => simp [ih]

@[simp] theorem assign_keys (row : AsyncTask) (values : List Assign) :
    (assign row values).keys = row.keys :=
  assign_frame (fun a _ row => Write.apply_keys row (.col a)) row

theorem assign_reported {row : AsyncTask} {values : List Assign}
    (h : ∀ a ∈ values, a.ofOutput = false) :
    (assign row values).reported = row.reported := by
  refine assign_frame ?_ row
  intro a ha row
  have hset := h a ha
  cases a <;> first | rfl | cases hset

/-- A row as it is inserted, at the time 0. -/
def sampleRow : AsyncTask where
  taskId := "task"
  idempotencyKey := "key"
  idempotencyBucket := 0
  tenant := "tenant"
  channel := "channel"
  status := .accepted
  rowVersion := 0
  templateAlias := "video"
  templateVersion := 1
  upstreamTaskId := none
  attempts := 0
  maxAttempts := 1
  submitStartedAt := none
  deadlineAt := none
  callbackToken := none
  createReqRef := none
  createReqDigest := some "digest"
  resultRef := none
  resultSummary := none
  resultDegraded := none
  statusSnapshot := none
  statusSnapshotAt := none
  rawStatus := none
  errorCode := none
  errorMessage := none
  retryable := none
  cancelRequested := false
  cancelRequestedAt := none
  unknownSince := none
  confirmAttempts := 0
  lastConfirmedAt := none
  pollCount := 0
  nextPollAt := none
  lastPolledAt := none
  createdAt := 0
  updatedAt := 0
  startedAt := none
  finishedAt := none
  attributes := none

end AsyncGateway
