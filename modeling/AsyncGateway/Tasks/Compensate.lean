import AsyncGateway.Tasks.Submit

/-!
# Tasks — `compensate_orphan`

What becomes of a task whose creation is in doubt: it goes back to polling under the id it has,
the upstream is asked whether it was created, or it is closed for a human.  Only the answer that
it was not created opens it to a new submission.
-/

namespace AsyncGateway

open TaskStatus TaskRuntime
open Interleave (Prog)

variable (C : Container)

/-- What `_confirm` made out: whether there is a conclusion, the id, and the reason. -/
structure Confirmation where
  confirmed : Bool
  upstreamId : Option String
  detail : String
  deriving DecidableEq

/-- What the answer to the confirmation query says. -/
def confirmationOf (t : ResolvedTemplate) (result : UpstreamCallResult) :
    Except Exn Confirmation := do
  let found ← match result.ok, result.response.bind (·.jsonBody) with
    | true, some (.obj doc) => ExpressionError.lift (tryExtract (.obj doc) t.idLocation)
    | _, _ => .ok none
  match found with
  | some value =>
      .ok ⟨true, some (C.pyStr value), "confirmed created via query_by_client_key"⟩
  | none =>
      if result.response.any fun r => decide (r.statusCode = 404 ∨ r.statusCode = 400) then
        .ok ⟨true, none, "confirmed not created via query_by_client_key"⟩
      else .ok ⟨false, none, "confirmation inconclusive (query_by_client_key)"⟩

/-- Only 404 and 400 say that there is no task. -/
theorem confirmationOf_denied {C : Container} {t : ResolvedTemplate} {result : UpstreamCallResult}
    {c : Confirmation} (h : confirmationOf C t result = .ok c) (hc : c.confirmed = true)
    (hid : c.upstreamId = none) :
    ∃ r, result.response = some r ∧ (r.statusCode = 404 ∨ r.statusCode = 400) := by
  -- where nothing was found, the status code alone decides
  have of_code : (if result.response.any fun r => decide (r.statusCode = 404 ∨ r.statusCode = 400)
      then .ok ⟨true, none, "confirmed not created via query_by_client_key"⟩
      else .ok ⟨false, none, "confirmation inconclusive (query_by_client_key)"⟩ :
        Except Exn Confirmation) = .ok c →
      ∃ r, result.response = some r ∧ (r.statusCode = 404 ∨ r.statusCode = 400) := by
    intro h
    split at h
    · obtain ⟨r, hres, hcode⟩ := (Option.any_eq_true _ _).mp ‹_›
      exact ⟨r, hres, of_decide_eq_true hcode⟩
    · cases h
      cases hc
  simp only [confirmationOf, bind, Except.bind] at h
  split at h
  · split at h
    · cases h
    · split at h
      · cases h
        cases hid
      · exact of_code h
  · exact of_code h

/-- A conclusion that has an id has the one the answer names. -/
theorem confirmationOf_named {C : Container} {t : ResolvedTemplate} {result : UpstreamCallResult}
    {c : Confirmation} {id : String} (h : confirmationOf C t result = .ok c)
    (hid : c.upstreamId = some id) :
    result.ok = true ∧ ∃ fields v, result.response.bind (·.jsonBody) = some (.obj fields) ∧
      tryExtract (.obj fields) t.idLocation = .ok (some v) ∧ C.pyStr v = id := by
  have of_code : (if result.response.any fun r => decide (r.statusCode = 404 ∨ r.statusCode = 400)
      then .ok ⟨true, none, "confirmed not created via query_by_client_key"⟩
      else .ok ⟨false, none, "confirmation inconclusive (query_by_client_key)"⟩ :
        Except Exn Confirmation) ≠ .ok c := by
    intro h
    split at h <;> cases h <;> cases hid
  simp only [confirmationOf, bind, Except.bind] at h
  split at h
  · rename_i doc hok hdoc
    cases hv : tryExtract (.obj doc) t.idLocation with
    | error e =>
        rw [hv] at h
        cases h
    | ok found =>
        rw [hv] at h
        cases found with
        | none => exact absurd h of_code
        | some v =>
            cases h
            exact ⟨hok, _, v, hdoc, hv, Option.some.inj hid⟩
  · exact absurd h of_code

/-- `_confirm`. -/
def confirm (task : AsyncTask) (t : ResolvedTemplate) (bearer : Option String) :
    Handler Confirmation :=
  match t.capabilities.confirmStrategy, nonEmpty task.createReqDigest with
  | .queryByClientKey, some digest => do
      let request ← raiseIn (renderConfirm C.joinUrl t digest)
      let result ← UpstreamClient.call C .confirm request .poll bearer
      raiseIn (confirmationOf C t result)
  | .listAndMatch, _ =>
      if t.capabilities.listTasks then
        pure ⟨false, none,
          "list_and_match not implemented in this milestone (requires list endpoint mapping)"⟩
      else pure ⟨false, none, "no usable confirmation strategy"⟩
  | _, _ => pure ⟨false, none, "no usable confirmation strategy"⟩

/-- The task is closed, and awaits a human. -/
def awaitHuman (task : AsyncTask) (code : ErrorCode) (message : String) : Handler Unit :=
  advanceAndFinalize task deadAwaitingConfirm [submitUnknown]
    [.errorCode (some code), .errorMessage (some message), .nextPollAt none]

/-- What follows from a confirmation. -/
def settleConfirmation (task : AsyncTask) (t : ResolvedTemplate) (c : Confirmation) :
    Handler Unit :=
  match c.confirmed, nonEmpty c.upstreamId with
  | true, some upstreamId => do
      let next ← nowPlus (.fin 1)
      let _ ← applyOp (.relocateCompensate (some upstreamId) upstreamSubmitted none none
        (some next) (some c.detail))
      enqueue (pollQueue t.pool) "poll_upstream"
  | true, none => do
      -- not created: back to `accepted` with the intent cleared, the only way to a new creation
      let now ← now_
      let moved ← applyOp (.advance accepted (some [submitUnknown])
        [.submitStartedAt none, .unknownSince none, .nextPollAt (some now), .errorCode none,
          .errorMessage none])
      if moved then
        ask (.enqueue
          { queue := "submit:default", name := "submit_upstream", recreated := true })
      else pure ()
  | false, _ => do
      let delay ← backoff (task.confirmAttempts + 1) 10 300
      let next ← nowPlus (.fin delay)
      -- `submit_unknown` has no edge to itself
      let _ ← applyOp (.relocateCompensate none submitUnknown none none (some next)
        (some c.detail))
      pure ()

/-- `compensate_orphan` on the row it loaded. -/
def compensateLoaded (task : AsyncTask) : Handler Unit := do
  let (t, strategy) ← template C task
  if task.cancelRequested then
    awaitHuman task .cancelled
      "cancel_requested while task was in submit_unknown; closed for human review"
  else
    match nonEmpty task.upstreamTaskId with
    | some upstreamId => do
        let now ← now_
        let moved ← applyOp (.relocateCompensate (some upstreamId) upstreamSubmitted none none
          (some now) (some "already created; resume polling (no re-create allowed)"))
        if moved then enqueue (pollQueue t.pool) "poll_upstream" else pure ()
    | none => do
        let maxLifetime := strategy.unknownMaxLifetimeSeconds.getD 3600
        let unknownSince := task.unknownSince.getD task.updatedAt
        let now ← now_
        if (maxLifetime : ℚ) ≤ now - unknownSince then
          awaitHuman task .unknownExhausted
            "unknown lifetime exceeded; awaiting human confirmation"
        else if ¬ t.capabilities.confirmAutoAllowed then
          awaitHuman task .unknownExhausted
            "confirm_strategy=manual_only: never auto re-create; awaiting human confirmation"
        else do
          let bearer ← ask .getCredential
          let c ← confirm C task t bearer
          settleConfirmation task t c

def compensateOrphan : Handler Unit := do
  match ← loadTask with
  | none => pure ()
  | some task => if task.status = submitUnknown then compensateLoaded C task else pure ()

end AsyncGateway
