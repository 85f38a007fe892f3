import AsyncGateway.System.Conduct

/-!
# System — what the handlers write

A handler asks for writes of some kinds only (`Writes`).  `SubmitWrite` lists the writes of
`_handle_submit_result`, `PolledWrite` and `PollErrorWrite` those of `_handle_poll_result`, each
with the branch it is in.  What holds of every write that is listed is a matter of these lists, and
not of the handlers (`writes_handleSubmitResult`, `writes_handlePollResult`).
-/

namespace AsyncGateway

open TaskStatus TaskRuntime
open Interleave

/-- `p` asks for no write but those `ok` allows, whatever it is answered. -/
abbrev Writes {α : Type} (ok : DaoOp → Prop) (p : Handler α) : Prop :=
  Prog.Avoids (S := effects) (fun o => ∃ op also, o = .apply op also ∧ ¬ ok op) p

section Writes

variable {C : Container} {task : AsyncTask} {t : ResolvedTemplate} {ok : DaoOp → Prop}

theorem writes_ask {o : Op} (h : ∀ op also, o ≠ .apply op also) : Writes ok (ask o) :=
  .perform fun ⟨op, also, ho, _⟩ => h op also ho

theorem writes_apply {op : DaoOp} (h : ok op) : Writes ok (applyOp op) := by
  refine .perform ?_
  rintro ⟨op', also, ho, hnot⟩
  cases ho
  exact hnot h

theorem writes_now : Writes ok now_ := writes_ask fun _ _ h => nomatch h

theorem writes_nowPlus {delay : PyFloat} : Writes ok (nowPlus delay) :=
  .bind writes_now fun _ => .ofExcept _

theorem writes_backoff {attempt : ℤ} {base cap : Seconds} : Writes ok (backoff attempt base cap) :=
  .bind (writes_ask fun _ _ h => nomatch h) fun _ => .ofExcept _

theorem writes_audit {event : AuditEvent} : Writes ok (audit event) :=
  writes_ask fun _ _ h => nomatch h

theorem writes_enqueue {queue name : String} : Writes ok (enqueue queue name) :=
  writes_ask fun _ _ h => nomatch h

theorem writes_noteAttribute {attributes : Json.Fields}
    (h : ∀ read, ok (.noteAttribute read attributes)) : Writes ok (noteAttribute attributes) := by
  refine .bind (writes_ask fun _ _ h => nomatch h) fun found => ?_
  cases found with
  | none => exact .pure _
  | some read => exact writes_apply (h read)

theorem writes_noteChannelHealthy {channel : String} : Writes ok (noteChannelHealthy C channel) :=
  .tryCatch (writes_ask fun _ _ h => nomatch h) fun _ => .pure _

theorem writes_reschedule {elapsed : Seconds} {seconds : Option Seconds}
    (h : ∀ next, ok (.scheduleNextPoll next)) : Writes ok (reschedule task elapsed seconds) := by
  have rest : ∀ interval : Seconds, Writes ok (do
      let next ← nowPlus (.fin interval)
      let _ ← applyOp (.scheduleNextPoll next)
      pure ()) := fun _ =>
    .bind writes_nowPlus fun next => .bind (writes_apply (h next)) fun _ => .pure _
  unfold reschedule
  split
  · exact rest _
  · exact .bind (writes_ask fun _ _ h => nomatch h) fun _ => rest _

theorem writes_finalizeTerminal {status : TaskStatus} :
    Writes ok (finalizeTerminal task status) :=
  .bind (.bind writes_now fun _ => writes_ask fun _ _ h => nomatch h) fun _ =>
    .bind (writes_ask fun _ _ h => nomatch h) fun _ => writes_audit

theorem writes_finalizeSuccess : Writes ok (finalizeSuccess C task t) := by
  have rest : Writes ok (do
      ask .dropCredential
      audit (terminalEvent task
        [("status", .str succeeded.value), ("alias", .str task.templateAlias)])) :=
    .bind (writes_ask fun _ _ h => nomatch h) fun _ => writes_audit
  exact .bind (.bind writes_now fun _ => writes_ask fun _ _ h => nomatch h) fun _ =>
    .ite (.bind (writes_ask fun _ _ h => nomatch h) fun _ => rest) rest

theorem writes_advanceAndFinalize {dst : TaskStatus} {expected : List TaskStatus}
    {values : List Assign} (h : ok (.advance dst (some expected) values)) :
    Writes ok (advanceAndFinalize task dst expected values) :=
  .bind (writes_apply h) fun _ => .ite writes_finalizeTerminal (.pure _)

theorem Writes.mono {α : Type} {ok' : DaoOp → Prop} {p : Handler α} (h : Writes ok p)
    (hok : ∀ op, ok op → ok' op) : Writes ok' p := by
  rintro o ho ⟨op, also, rfl, hnot⟩
  exact h _ ho ⟨op, also, rfl, fun hop => hnot (hok op hop)⟩

end Writes

/-- The text `str` makes of what is found at a path of an answer. -/
def foundText (C : Container) (spec : String) (body : Option Json) : Option String :=
  match tryExtract (payloadOr body) spec with
  | .ok (some v) => some (C.pyStr v)
  | _ => none

theorem foundText_eq_some {C : Container} {spec : String} {body : Option Json} {s : String} :
    foundText C spec body = some s ↔
      ∃ v, tryExtract (payloadOr body) spec = .ok (some v) ∧ C.pyStr v = s := by
  unfold foundText
  split
  · simp [*]
  · next hn => simpa using fun v hv => absurd hv (hn v)

/-! ### The writes of a submission -/

section Submit

variable (C : Container) (t : ResolvedTemplate) (result : UpstreamCallResult)

/-- The writes of `_handle_submit_result`. -/
inductive SubmitWrite : DaoOp → Prop where
  | dead (code : ErrorCode) (message : Option String) (retryable : Bool) (now : Time) :
      SubmitWrite (.advance dead (some submitSources) (deadValues code message retryable now))
  | submitted (id : String) (native : Option String) (next : Time) (hok : result.ok = true)
      (hid : foundText C t.idLocation (result.response.bind (·.jsonBody)) = some id)
      (hnative : foundText C t.statusField (result.response.bind (·.jsonBody)) = native) :
      SubmitWrite (.markSubmitted id native none next none)
  | unknown (code : ErrorCode) (message : Option String) :
      SubmitWrite (.enterUnknown code message none)
  | released (next : Time) (decrement : Bool) (code : ErrorCode) (message : Option String)
      (deadline : Option Time) :
      SubmitWrite (.releaseSubmitIntent submitSources next decrement (some code) message
        (some true) none deadline)
  | noted (read : Option Json.Fields) (attributes : Json.Fields) :
      SubmitWrite (.noteAttribute read attributes)

variable {C t result} {task : AsyncTask} {strategy : Strategy}

theorem writes_submissionDead {code : ErrorCode} {message : Option String} {retryable : Bool} :
    Writes (SubmitWrite C t result) (submissionDead task code message retryable) :=
  .bind writes_now fun _ => .bind (writes_apply (.dead _ _ _ _)) fun _ => writes_finalizeTerminal

theorem writes_releaseForUpstreamWait {delay : PyFloat} {code : ErrorCode}
    {message : Option String} {decrement : Bool} :
    Writes (SubmitWrite C t result)
      (releaseForUpstreamWait C task submitSources delay code message decrement) :=
  .bind writes_nowPlus fun _ => .bind (writes_apply (.released _ _ _ _ _)) fun _ =>
    .ite (.bind (writes_noteAttribute fun _ => .noted _ _) fun _ => .pure _) (.pure _)

theorem writes_handleCreated (hok : result.ok = true) :
    Writes (SubmitWrite C t result) (handleCreated C task t result) := by
  refine .bind_ofExcept fun found hfound => ?_
  cases found with
  | none => exact .bind (writes_apply (.unknown _ _)) fun _ => writes_enqueue
  | some upstreamId =>
      refine .bind_ofExcept fun raw hraw => ?_
      have hid : foundText C t.idLocation (result.response.bind (·.jsonBody)) =
          some (C.pyStr upstreamId) := foundText_eq_some.mpr ⟨upstreamId, lift_eq_ok hfound, rfl⟩
      have hnative : foundText C t.statusField (result.response.bind (·.jsonBody)) =
          raw.map C.pyStr := by
        cases raw <;> simp [foundText, lift_eq_ok hraw]
      have polled : Writes (SubmitWrite C t result) (do
          noteChannelHealthy C task.channel
          enqueue (pollQueue t.pool) "poll_upstream") :=
        .bind writes_noteChannelHealthy fun _ => writes_enqueue
      have rest : Writes (SubmitWrite C t result) (do
          if task.cancelRequested then enqueue "cancel:default" "cancel_upstream" else pure ()
          noteChannelHealthy C task.channel
          enqueue (pollQueue t.pool) "poll_upstream") :=
        .ite (.bind writes_enqueue fun _ => polled) polled
      refine .bind (writes_ask fun _ _ h => nomatch h) fun _ => .bind writes_now fun _ =>
        .bind (.ofExcept _) fun next =>
        .bind (writes_apply (.submitted _ _ next hok hid hnative)) fun _ => .ite ?_ (.pure _)
      refine .bind (writes_noteAttribute fun _ => .noted _ _) fun _ => ?_
      cases result.response with
      | none => exact rest
      | some response => exact .bind (writes_ask fun _ _ h => nomatch h) fun _ => rest

/-- **The answer to a create call writes nothing that is not listed.** -/
theorem writes_handleSubmitResult :
    Writes (SubmitWrite C t result) (handleSubmitResult C task t strategy result) := by
  refine .ite writes_submissionDead (.ite_of writes_handleCreated fun _ => ?_)
  cases result.classification with
  | none => exact .raise _
  | some c =>
      refine .ite ?_ (.ite ?_
        (.ite writes_submissionDead (.ite ?_ (.ite writes_submissionDead ?_))))
      · exact .bind (writes_ask fun _ _ h => nomatch h) fun _ =>
          .bind (writes_ask fun _ _ h => nomatch h) fun _ =>
          .bind writes_releaseForUpstreamWait fun _ => .pure _
      · exact .bind (writes_ask fun _ _ h => nomatch h) fun _ => .bind writes_backoff fun _ =>
          .bind writes_releaseForUpstreamWait fun _ =>
          .bind (writes_noteAttribute fun _ => .noted _ _) fun _ => writes_audit
      · exact .bind (writes_apply (.unknown _ _)) fun _ => writes_enqueue
      · -- the request never left
        exact .bind writes_backoff fun _ => .bind writes_nowPlus fun _ =>
          .bind (writes_apply (.released _ _ _ _ _)) fun _ => .pure _

end Submit

/-! ### What an answer to a poll calls for -/

section Called

variable (C : Container)

/-- The state a poll that is answered with success calls for: its status, or a path that finds
none; an answer whose status cannot be read or written at its place raises instead. -/
def polledTarget (task : AsyncTask) (t : ResolvedTemplate) (strategy : Strategy)
    (result : UpstreamCallResult) : Except Exn TaskStatus := do
  let body := result.response.bind (·.jsonBody)
  match ← ExpressionError.lift (tryExtract (payloadOr body) t.statusField) with
  | none => .ok pollUnrecognized
  | some rawStatus => do
      let native := C.pyStr rawStatus
      let snapshot ← snapshotWithStatus body t native
      match t.mapsStatus native with
      | none => .ok inProgress
      | some .succeeded => do
          let _ ← restoreRawResultField snapshot t result
          .ok succeeded
      | some .timeout => .ok timeout
      | some _ =>
          .ok (if (task.attempts : ℤ) < maxAttempts strategy task then failed else dead)

/-- How often a poll of the task was answered with 404, this answer included. -/
def notFoundCount (task : AsyncTask) : ℤ :=
  (match (task.attributes.getD []).lookup "poll_404_count" with
    | some (.int n) => n
    | _ => 0) + 1

/-- The state a poll that is not answered with success calls for. -/
def errorTarget (task : AsyncTask) (result : UpstreamCallResult) : Option TaskStatus :=
  if result.outcome = .ssrfRejected then some dead
  else result.classification.bind fun c =>
    if c.errorClass ≠ .rateLimited ∧ c.channelFault = false ∧ c.action = .confirm ∧
        ¬ (result.response.map (·.statusCode) = some 404 ∧
          notFoundCount task < poll404ConfirmThreshold) then
      some submitUnknown
    else none

def pollTarget (task : AsyncTask) (t : ResolvedTemplate) (strategy : Strategy)
    (result : UpstreamCallResult) : Option TaskStatus :=
  if result.ok then (polledTarget C task t strategy result).toOption else errorTarget task result

end Called

/-! ### The writes of an answered poll -/

section Poll

variable (C : Container) (task : AsyncTask) (t : ResolvedTemplate) (strategy : Strategy)
  (result : UpstreamCallResult)

/-- The answer reports the status, and the snapshot is made of it. -/
structure ReportsStatus (native : String) (snapshot : Option Json) : Prop where
  found : foundText C t.statusField (result.response.bind (·.jsonBody)) = some native
  snapshot : snapshotWithStatus (result.response.bind (·.jsonBody)) t native = .ok snapshot

/-- The writes of a poll that is answered with success. -/
inductive PolledWrite : DaoOp → Prop where
  | unread (next : Time) (hs : task.status = pollUnrecognized) :
      PolledWrite (.recordPollResult (result.response.bind (·.jsonBody)) none (some next)
        [task.status])
  | unrecognized (now next : Time) (message : Option String) (hs : task.status ≠ pollUnrecognized)
      (target : polledTarget C task t strategy result = .ok pollUnrecognized) :
      PolledWrite (.advance pollUnrecognized (some [task.status])
        [.statusSnapshot (result.response.bind (·.jsonBody)), .statusSnapshotAt (some now),
          .rawStatus none, .errorCode (some .unknownExhausted), .errorMessage message,
          .unknownSince (some now), .nextPollAt (some next)])
  | running (native : String) (snapshot : Option Json) (next : Time)
      (h : ReportsStatus C t result native snapshot) :
      PolledWrite (.recordPollResult snapshot (some native) (some next) [task.status])
  | begun (hs : task.status ≠ inProgress)
      (target : polledTarget C task t strategy result = .ok inProgress) :
      PolledWrite (.advance inProgress (some [task.status]) [.unknownSince none])
  | succeeded (native : String) (snapshot restored : Option Json) (now : Time)
      (h : ReportsStatus C t result native snapshot) (hm : t.mapsStatus native = some succeeded)
      (hr : restoreRawResultField snapshot t result = .ok restored)
      (target : polledTarget C task t strategy result = .ok succeeded) :
      PolledWrite (.advance succeeded (some [task.status])
        [.rawStatus (some native), .statusSnapshot restored, .statusSnapshotAt (some now),
          .pollCount (task.pollCount + 1), .lastPolledAt (some now), .nextPollAt none,
          .finishedAt (some now), .errorCode none, .errorMessage none])
  | expired (native : String) (snapshot : Option Json) (message : Option String) (now : Time)
      (h : ReportsStatus C t result native snapshot)
      (target : polledTarget C task t strategy result = .ok timeout) :
      PolledWrite (.advance timeout (some [task.status])
        [.rawStatus (some native), .statusSnapshot snapshot, .errorCode (some .timeout),
          .errorMessage message, .finishedAt (some now), .nextPollAt none])
  | retried (native : String) (snapshot : Option Json) (message : Option String) (now next : Time)
      (h : ReportsStatus C t result native snapshot)
      (target : polledTarget C task t strategy result = .ok failed) :
      PolledWrite (.advance failed (some [task.status])
        [.rawStatus (some native), .statusSnapshot snapshot, .statusSnapshotAt (some now),
          .errorCode (some .upstreamTerminal), .errorMessage message, .retryable (some true),
          .nextPollAt (some next)])
  | exhausted (native : String) (snapshot : Option Json) (message : Option String) (now : Time)
      (h : ReportsStatus C t result native snapshot)
      (target : polledTarget C task t strategy result = .ok dead) :
      PolledWrite (.advance dead (some [task.status])
        [.rawStatus (some native), .statusSnapshot snapshot, .errorCode (some .upstreamTerminal),
          .errorMessage message, .retryable (some true), .finishedAt (some now), .nextPollAt none])

/-- The writes of a poll that is not. -/
inductive PollErrorWrite : DaoOp → Prop where
  | rejected (now : Time) (target : errorTarget task result = some dead) :
      PollErrorWrite (.advance dead (some [task.status])
        (deadValues .upstreamTerminal (result.safeError C) false now))
  | scheduled (next : Time) : PollErrorWrite (.scheduleNextPoll next)
  | faulted (code : ErrorCode) (message : Option String) (next : Option Time) :
      PollErrorWrite (.markFailure [task.status] code message true next none)
  /-- A 404, of which there were too few. -/
  | missed (read : Option Json.Fields)
      (hmiss : result.response.map (·.statusCode) = some 404)
      (hfew : notFoundCount task < poll404ConfirmThreshold) :
      PollErrorWrite (.noteAttribute read [("poll_404_count", .int (notFoundCount task))])
  /-- The task is to be confirmed. -/
  | lost (code : ErrorCode) (message : Option String) (now : Time)
      (target : errorTarget task result = some submitUnknown) :
      PollErrorWrite (.advance submitUnknown (some [task.status])
        [.errorCode (some code), .errorMessage message, .unknownSince (some now),
          .nextPollAt (some now)])

variable {C task t strategy result} {ok : DaoOp → Prop} {elapsed : Seconds}

theorem writes_handlePolled :
    Writes (PolledWrite C task t strategy result) (handlePolled C task t strategy elapsed result) := by
  refine .bind writes_noteChannelHealthy fun _ => .bind_ofExcept fun found hfound => ?_
  cases found with
  | none =>
      -- no status in the answer
      have target : polledTarget C task t strategy result = .ok pollUnrecognized := by
        simp [polledTarget, hfound, bind, Except.bind]
      refine .bind writes_nowPlus fun next => .ite_of (fun hs => ?_) fun hs => ?_
      · exact .bind (writes_apply (.unread next hs)) fun _ => .pure _
      · exact .bind writes_now fun now =>
          .bind (writes_apply (.unrecognized now next _ hs target)) fun _ => writes_audit
  | some raw =>
      refine .bind_ofExcept fun snapshot hsnap => ?_
      have h : ReportsStatus C t result (C.pyStr raw) snapshot :=
        ⟨foundText_eq_some.mpr ⟨raw, lift_eq_ok hfound, rfl⟩, hsnap⟩
      cases hm : t.mapsStatus (C.pyStr raw) with
      | none =>
          -- a status the template says nothing of
          have target : polledTarget C task t strategy result = .ok inProgress := by
            simp [polledTarget, hfound, hsnap, hm, bind, Except.bind]
          refine .bind (writes_ask fun _ _ h => nomatch h) fun _ => .bind writes_nowPlus fun next =>
            .bind (writes_apply (.running _ _ next h)) fun _ => .ite_of (fun _ => .pure _) fun hs => ?_
          exact .bind (writes_apply (.begun hs target)) fun _ => .pure _
      | some mapped =>
          rcases mapsStatus_cases hm with rfl | rfl | rfl
          · refine .bind_ofExcept fun restored hr => .bind writes_now fun now =>
              .bind (writes_apply (.succeeded _ _ _ now h hm hr ?_)) fun _ =>
                .ite writes_finalizeSuccess (.pure _)
            simp [polledTarget, hfound, hsnap, hm, hr, bind, Except.bind]
          · refine .bind writes_now fun now =>
              writes_advanceAndFinalize (.expired _ _ _ now h ?_)
            simp [polledTarget, hfound, hsnap, hm, bind, Except.bind]
          · refine .ite_of (fun hmore => ?_) fun hmore => ?_
            · refine .bind writes_now fun now => .bind writes_backoff fun _ =>
                .bind writes_nowPlus fun next =>
                .bind (writes_apply (.retried _ _ _ now next h ?_)) fun _ =>
                  .ite writes_audit (.pure _)
              simp [polledTarget, hfound, hsnap, hm, hmore, bind, Except.bind]
            · refine .bind writes_now fun now =>
                writes_advanceAndFinalize (.exhausted _ _ _ now h ?_)
              simp [polledTarget, hfound, hsnap, hm, hmore, bind, Except.bind]

theorem writes_handlePollError :
    Writes (PollErrorWrite C task result) (handlePollError C task elapsed result) := by
  have hreschedule : ∀ seconds,
      Writes (PollErrorWrite C task result) (reschedule task elapsed seconds) :=
    fun _ => writes_reschedule .scheduled
  refine .ite_of (fun hout => ?_) fun hout => ?_
  · exact .bind writes_now fun now =>
      .bind (writes_apply (.rejected now (if_pos hout))) fun _ => writes_finalizeTerminal
  · cases hc : result.classification with
    | none => exact hreschedule _
    | some c =>
        refine .ite_of (fun _ => ?_) fun hr => .ite_of (fun _ => ?_) fun hf =>
          .ite_of (fun ha => ?_) fun _ => ?_
        · exact .bind (writes_ask fun _ _ h => nomatch h) fun _ => .bind writes_nowPlus fun _ =>
            .bind (writes_apply (.faulted _ _ _)) fun _ => .pure _
        · exact .bind (writes_ask fun _ _ h => nomatch h) fun _ => .bind writes_audit fun _ =>
            .bind writes_backoff fun _ => hreschedule _
        · -- the confirmation that a 404 or a conflict asks for
          refine .ite_of (fun hmiss => ?_) fun hmany => ?_
          · exact .bind (writes_noteAttribute fun read => .missed read hmiss.1 hmiss.2) fun _ =>
              .bind writes_backoff fun _ => hreschedule _
          · refine .bind writes_now fun now => .bind (writes_apply (.lost _ _ now ?_)) fun _ =>
              writes_enqueue
            have hcase : c.errorClass ≠ .rateLimited ∧ c.channelFault = false ∧
                c.action = .confirm ∧ ¬ (result.response.map (·.statusCode) = some 404 ∧
                  notFoundCount task < poll404ConfirmThreshold) :=
              ⟨hr, by simpa using hf, ha, hmany⟩
            rw [errorTarget, if_neg hout, hc, Option.bind_some, if_pos hcase]
        · exact .bind (writes_apply (.faulted _ _ _)) fun _ => hreschedule _

/-- A task is not lost to a 404 of which there were too few. -/
theorem not_few_of_errorTarget (h : errorTarget task result = some submitUnknown) :
    ¬ (result.response.map (·.statusCode) = some 404 ∧
      notFoundCount task < poll404ConfirmThreshold) := by
  unfold errorTarget at h
  split at h
  · cases h
  · obtain ⟨c, -, hc⟩ := Option.bind_eq_some_iff.mp h
    split at hc
    · next hcase => exact hcase.2.2.2
    · cases hc

/-- **The answer to a poll writes nothing that is not listed.** -/
theorem writes_handlePollResult
    (hpolled : result.ok = true → ∀ op, PolledWrite C task t strategy result op → ok op)
    (herror : result.ok = false → ∀ op, PollErrorWrite C task result op → ok op) :
    Writes ok (handlePollResult C task t strategy result) :=
  .bind writes_now fun _ => .ite_of (fun hok => writes_handlePolled.mono (hpolled hok)) fun hok =>
    writes_handlePollError.mono (herror (by simpa using hok))

end Poll

end AsyncGateway
