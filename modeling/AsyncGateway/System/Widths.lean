import AsyncGateway.Admin.App
import AsyncGateway.Gateway.Authentication
import AsyncGateway.Gateway.Callbacks
import AsyncGateway.Gateway.Snapshot
import AsyncGateway.System.Routine
import AsyncGateway.System.UpstreamId
import AsyncGateway.System.Writes

/-!
# System — the widths of the columns

The columns for keys, ids, states and owners are bounded strings, and a write of a longer one is an
exception of the database.  What is written comes from the headers of a request, from an answer of
the upstream, from a callback, or from the key of the task that is replayed, and nothing on the way
looks at its length.  For each of these the writes fit exactly where the strings that were received
are short (`fits_iff_short`).
-/

namespace AsyncGateway

open TaskStatus TaskRuntime
open Interleave (Prog)

/-! ### The declared widths -/

/-- A string that fits into a column of `n` characters; `None` does. -/
def Narrow (n : ℕ) (s : Option String) : Prop := ∀ x ∈ s, x.length ≤ n

theorem narrow_none {n : ℕ} : Narrow n none := fun _ h => by cases h

theorem narrow_some {n : ℕ} {s : String} : Narrow n (some s) ↔ s.length ≤ n := by simp [Narrow]

/-- The bounded columns of `async_task`. -/
structure AsyncTask.Fits (row : AsyncTask) : Prop where
  idempotencyKey : row.idempotencyKey.length ≤ 160
  tenant : row.tenant.length ≤ 64
  channel : row.channel.length ≤ 64
  upstreamTaskId : Narrow 191 row.upstreamTaskId
  rawStatus : Narrow 64 row.rawStatus

def Assign.Fits : Assign → Prop
  | .tenant v => v.length ≤ 64
  | .channel v => v.length ≤ 64
  | .upstreamTaskId v => Narrow 191 v
  | .rawStatus v => Narrow 64 v
  | _ => True

/-- What a writer of the DAO sets fits into its columns. -/
def DaoOp.Fits : DaoOp → Prop
  | .markSubmitted upstreamTaskId rawStatus _ _ _ =>
      upstreamTaskId.length ≤ 191 ∧ Narrow 64 rawStatus
  | .advance _ _ values => ∀ a ∈ values, a.Fits
  | .recordPollResult _ rawStatus _ _ => Narrow 64 rawStatus
  | .relocateCompensate upstreamTaskId _ rawStatus _ _ _ =>
      Narrow 191 upstreamTaskId ∧ Narrow 64 rawStatus
  | _ => True

/-- The bounded columns of `callback_event`. -/
structure CallbackRow.Fits (row : CallbackRow) : Prop where
  channel : row.channel.length ≤ 64
  dedupKey : row.dedupKey.length ≤ 191
  upstreamTaskId : Narrow 191 row.upstreamTaskId
  rawStatus : Narrow 64 row.rawStatus

/-- The bounded columns of `orphan_callback`. -/
structure OrphanCallback.Fits (orphan : OrphanCallback) : Prop where
  channel : orphan.channel.length ≤ 64
  upstreamTaskId : orphan.upstreamTaskId.length ≤ 191
  rawStatus : Narrow 64 orphan.rawStatus

/-! ### Writes that do not fit -/

/-- A write the database refuses. -/
def Op.Overflows : Op → Prop
  | .apply op _ => ¬ op.Fits
  | _ => False

def AcceptOp.Overflows : AcceptOp → Prop
  | .insert row => ¬ row.Fits
  | _ => False

def AdminOp.Overflows : AdminOp → Prop
  | .insert row => ¬ row.toAsyncTask.Fits
  | _ => False

def CallbackOp.Overflows : CallbackOp → Prop
  | .insertCallbackEvent row orphan => ¬ (row.Fits ∧ ∀ o ∈ orphan, o.Fits)
  | .work o => o.Overflows
  | _ => False

/-- `p` asks for no write the database refuses, whatever it is answered. -/
abbrev Within {α : Type} (p : Handler α) : Prop := Prog.Avoids (S := effects) Op.Overflows p

section Within

variable {C : Container} {task : AsyncTask} {t : ResolvedTemplate} {strategy : Strategy}
  {result : UpstreamCallResult}

theorem within_of_calm {α : Type} {p : Handler α} (h : Calm p) : Within p := by
  intro o ho hover
  have hq := h o ho
  cases o with
  | apply op also => cases op <;> first | exact hq rfl | exact hover trivial
  | _ => exact hover

theorem within_of_writes {α : Type} {p : Handler α} (h : Writes DaoOp.Fits p) : Within p := by
  intro o ho hover
  cases o with
  | apply op also => exact h _ ho ⟨op, also, rfl, hover⟩
  | _ => exact hover

theorem within_apply {op : DaoOp} (h : op.Fits) : Within (applyOp op) := .perform fun hn => hn h

theorem within_now : Within now_ := within_of_calm calm_now

theorem within_nowPlus {delay : PyFloat} : Within (nowPlus delay) := within_of_calm calm_nowPlus

theorem within_backoff {attempt : ℤ} {base cap : Seconds} : Within (backoff attempt base cap) :=
  within_of_calm calm_backoff

theorem within_enqueue {queue name : String} : Within (enqueue queue name) :=
  within_of_calm calm_enqueue

theorem within_finalizeTerminal {status : TaskStatus} : Within (finalizeTerminal task status) :=
  within_of_calm calm_finalizeTerminal

theorem within_advanceAndFinalize {dst : TaskStatus} {expected : List TaskStatus}
    {values : List Assign} (h : ∀ a ∈ values, a.Fits) :
    Within (advanceAndFinalize task dst expected values) :=
  .bind (within_apply h) fun _ => .ite within_finalizeTerminal (.pure _)

theorem fits_deadValues {code : ErrorCode} {message : Option String} {retryable : Bool}
    {now : Time} : ∀ a ∈ deadValues code message retryable now, a.Fits := by
  simp [deadValues, Assign.Fits]

/-! ### The submission -/

/-- The id and the status of an answer that created the task are short. -/
def ShortCreated (C : Container) (t : ResolvedTemplate) (body : Option Json) : Prop :=
  ∀ id ∈ foundText C t.idLocation body,
    id.length ≤ 191 ∧ Narrow 64 (foundText C t.statusField body)

/-- Whatever becomes of a create call, but for one that is answered with success. -/
theorem within_handleSubmitResult
    (h : result.ok = true → ShortCreated C t (result.response.bind (·.jsonBody))) :
    Within (handleSubmitResult C task t strategy result) := by
  refine within_of_writes (writes_handleSubmitResult.mono fun op hop => ?_)
  cases hop with
  | dead => exact fits_deadValues
  | submitted id native _ hok hid hnative =>
      obtain ⟨hidfit, hstatusfit⟩ := h hok _ hid
      exact ⟨hidfit, hnative ▸ hstatusfit⟩
  | _ => trivial

/-! ### The poll -/

theorem within_handlePollResult
    (h : result.ok = true →
      Narrow 64 (foundText C t.statusField (result.response.bind (·.jsonBody)))) :
    Within (handlePollResult C task t strategy result) := by
  refine within_of_writes (writes_handlePollResult (fun hok op hop => ?_) fun _ op hop => ?_)
  · have short : ∀ native snapshot, ReportsStatus C t result native snapshot →
        native.length ≤ 64 := fun native _ hr => h hok _ hr.found
    cases hop with
    | unread => exact narrow_none
    | running native snapshot _ hr => exact narrow_some.mpr (short _ _ hr)
    | unrecognized => simp [DaoOp.Fits, Assign.Fits, narrow_none]
    | begun => simp [DaoOp.Fits, Assign.Fits]
    | succeeded native _ _ _ hr => simp [DaoOp.Fits, Assign.Fits, narrow_some, short _ _ hr]
    | expired native _ _ _ hr => simp [DaoOp.Fits, Assign.Fits, narrow_some, short _ _ hr]
    | retried native _ _ _ _ hr => simp [DaoOp.Fits, Assign.Fits, narrow_some, short _ _ hr]
    | exhausted native _ _ _ hr => simp [DaoOp.Fits, Assign.Fits, narrow_some, short _ _ hr]
  · cases hop with
    | rejected => exact fits_deadValues
    | lost => simp [DaoOp.Fits, Assign.Fits]
    | _ => trivial

/-! ### The confirmation -/

theorem within_settleConfirmation {c : Confirmation} (h : Narrow 191 c.upstreamId) :
    Within (settleConfirmation task t c) := by
  unfold settleConfirmation
  split
  · next hid =>
      exact .bind within_nowPlus fun _ =>
        .bind (within_apply ⟨narrow_some.mpr (h _ (nonEmpty_eq_some.mp hid).1), narrow_none⟩)
          fun _ => within_enqueue
  · exact .bind within_now fun _ =>
      .bind (within_apply (by simp [DaoOp.Fits, Assign.Fits])) fun _ => .ite (.perform id) (.pure _)
  · exact .bind within_backoff fun _ => .bind within_nowPlus fun _ =>
      .bind (within_apply ⟨narrow_none, narrow_none⟩) fun _ => .pure _

/-! ### The cancellation -/

/-- The cancellation writes a status of its own, and a short one. -/
theorem within_cancelUpstream : Within (cancelUpstream C) := by
  have hcancelled : ("cancelled" : String).length ≤ 64 := by decide
  refine .bind (.perform id) fun row => ?_
  cases row with
  | none => exact .pure _
  | some task =>
      refine .ite (.pure _) (.bind (within_of_calm calm_template) fun _ => .ite ?_ ?_)
      · exact .bind (within_of_calm calm_noteAttribute) fun _ => .ite (.bind within_now fun _ =>
          .bind (within_apply (by simp [DaoOp.Fits, Assign.Fits])) fun _ =>
            within_finalizeTerminal) (within_of_calm calm_enqueueSelfLater)
      split
      · exact .bind within_now fun _ => within_advanceAndFinalize (by simp [Assign.Fits])
      · refine .bind (.perform id) fun _ => .bind (.ofExcept _) fun _ =>
          .bind (within_of_calm (calm_call (by decide))) fun _ => .ite (.bind within_now fun _ =>
            within_advanceAndFinalize (by simp [Assign.Fits, narrow_some, hcancelled])) ?_
        exact .bind (within_of_calm calm_noteAttribute) fun _ => .bind within_backoff fun _ =>
          within_of_calm calm_enqueueSelfLater

/-! ### The callback -/

theorem within_applyCallback {taskId : String} {event : CallbackEvent}
    (h : Narrow 64 event.rawStatus) : Within (applyCallback C taskId event) := by
  refine .bind (.perform id) fun row => ?_
  cases row with
  | none => exact within_of_calm calm_audit
  | some task =>
      refine .ite (within_of_calm calm_audit) ?_
      split
      · exact .pure _
      · rename_i t' _
        unfold applyCallbackTo
        cases t'.mapsStatus (event.rawStatus.getD "") with
        | none => exact .bind (within_apply h) fun _ => .pure _
        | some mapped =>
            refine .ite ?_ (.bind (.bind within_now fun _ => ?_) fun _ =>
              .ite (.bind (within_of_calm calm_audit) fun _ =>
                within_of_calm calm_finalizeTask) (.pure _))
            · exact .bind (within_of_calm calm_noteAttribute) fun _ => .bind within_now fun _ =>
                .bind (within_apply trivial) fun _ => within_of_calm calm_audit
            · split <;> exact within_apply (by simp [DaoOp.Fits, Assign.Fits, h])

end Within

/-! ### The create request -/

section Create

variable {I : Intake} {r : CreateRequest}

/-- The headers a row is made of are short; the key of the caller counts without the white space
around it. -/
structure ShortRequest (headers : AuthHeaders) (aliasName : String) (explicitKey : Option String) :
    Prop where
  channel : (headerOr headers.channel aliasName).length ≤ 64
  tenant : (headerOr headers.tenant "default").length ≤ 64
  explicitKey : ∀ key, nonEmpty explicitKey = some key → (stripped key).length ≤ 160

theorem fits_newTask {taskId : String} {bucket : ℤ} {now : Time} {token : Option String} :
    (I.newTask r taskId bucket now token).Fits ↔
      (I.idem r).key.length ≤ 160 ∧ r.auth.tenant.length ≤ 64 ∧ r.auth.channel.length ≤ 64 :=
  ⟨fun h => ⟨h.idempotencyKey, h.tenant, h.channel⟩,
    fun h => ⟨h.1, h.2.1, h.2.2, narrow_none, narrow_none⟩⟩

/-- A derived key is short. -/
theorem length_deriveKey (H : Hashing) {keyHash : String} (h : keyHash.length = 24)
    (body : Json.Fields) (t : ResolvedTemplate) :
    (deriveKey H keyHash body t).key.length ≤ 160 := by
  have hprefix : derivedPrefix.length = 5 := by decide
  have hbar : ("|" : String).length = 1 := by decide
  have hempty : ("|empty" : String).length = 6 := by decide
  have hdigest : (String.ofList ((bodyDigest H body t).toList.take 32)).length ≤ 32 := by
    simp
  simp only [deriveKey]
  split
  · simp only [String.length_append, hprefix, h, hempty]
    omega
  · simp only [String.length_append, hprefix, h, hbar]
    omega

theorem within_acceptCreate
    (h : ∀ taskId bucket now token, (I.newTask r taskId bucket now token).Fits) :
    (acceptCreate I r).Avoids AcceptOp.Overflows :=
  Spared.acceptCreate
    { others := fun o ho => by
        cases o <;> first | exact id | cases ho
      body := fun _ => id
      response := fun _ _ => id
      row := fun _ _ _ _ hn => hn (h ..)
      credential := fun _ _ => id }

/-- What a request inserts fits, whatever the settings. -/
def CreateFits (H : Hashing) (r : CreateRequest) : Prop :=
  ∀ I : Intake, I.hashing = H → (acceptCreate I r).Avoids AcceptOp.Overflows

theorem createFits_iff {S : Authentication} {H : Hashing} {headers : AuthHeaders}
    {aliasName : String} (hauth : S.authenticate H headers aliasName = .ok r.auth) :
    CreateFits H r ↔ ShortRequest headers aliasName r.explicitKey := by
  obtain ⟨hchannel, htenant, hhash⟩ := Authentication.authenticate_ok hauth
  -- the key is the caller's, or a short one
  have hkey : ∀ I : Intake, I.hashing = H → ((I.idem r).key.length ≤ 160 ↔
      ∀ key, nonEmpty r.explicitKey = some key → (stripped key).length ≤ 160) := by
    rintro I rfl
    simp only [Intake.idem, resolveKey]
    cases hk : nonEmpty r.explicitKey with
    | none => simp [length_deriveKey I.hashing hhash]
    | some key => simp [stripped]
  constructor
  · intro hfits
    let I : Intake := { container := sampleContainer sampleTemplate, hashing := H }
    obtain ⟨taskId, bucket, now, token, hasks, -⟩ :=
      asks_insert (I := I) (r := r) (by decide : 0 < 100000)
    have hrow := fits_newTask.mp (not_not.mp (hfits I rfl _ hasks))
    exact ⟨hchannel ▸ hrow.2.2, htenant ▸ hrow.2.1, (hkey I rfl).mp hrow.1⟩
  · rintro ⟨hc, ht, hexplicit⟩ I rfl
    refine within_acceptCreate fun taskId bucket now token => fits_newTask.mpr ⟨?_, ?_, ?_⟩
    · exact (hkey I rfl).mpr hexplicit
    · rw [htenant]
      exact ht
    · rw [hchannel]
      exact hc

end Create

/-! ### The answers of the upstream -/

section Answers

variable (C : Container) (t : AcceptedTemplate) (secrets : List String) (r : HttpResponse)

/-- The body of an answer as the handlers see it. -/
def HttpResponse.scrubbed : Option Json := r.json.map (C.scrubPayload secrets)

/-- An answer of success. -/
def HttpResponse.Success : Prop := 200 ≤ r.statusCode ∧ r.statusCode < 300

/-- What is made of a poll that is answered with `r`. -/
def settlePoll (task : AsyncTask) (t : ResolvedTemplate) (strategy : Strategy) (now : Time) :
    Handler Unit :=
  handlePollResult C task t strategy (UpstreamClient.ofResponse C secrets .poll now r)

/-- What is made of a confirmation query that is answered with `r`. -/
def settleConfirm (task : AsyncTask) (t : ResolvedTemplate) (now : Time) : Handler Unit := do
  let c ← raiseIn (confirmationOf C t (UpstreamClient.ofResponse C secrets .poll now r))
  settleConfirmation task t c

/-- What the answer to a create call is written as fits. -/
def CreatedFits : Prop :=
  ∀ task strategy now, Within (settleAnswer C task t.toResolvedTemplate strategy secrets now r)

/-- What the answer to a poll is written as fits. -/
def PollFits : Prop :=
  ∀ task strategy now, Within (settlePoll C secrets r task t.toResolvedTemplate strategy now)

/-- What the answer to a confirmation query is written as fits. -/
def ConfirmFits : Prop :=
  ∀ task now, Within (settleConfirm C secrets r task t.toResolvedTemplate now)

/-- The status of an answer to a poll is short. -/
def ShortPolled : Prop :=
  r.Success → Narrow 64 (foundText C t.statusField (r.scrubbed C secrets))

/-- The id of an answer to a confirmation query is short. -/
def ShortConfirmed : Prop :=
  r.Success → ∀ doc, r.scrubbed C secrets = some (.obj doc) →
    Narrow 191 (foundText C t.idLocation (some (.obj doc)))

variable {C t secrets r}

theorem ofResponse_success (context : Context) (now : Time) :
    (UpstreamClient.ofResponse C secrets context now r).ok = true ↔ r.Success := by
  simp only [UpstreamClient.ofResponse, HttpResponse.Success]
  split
  · next h => simpa [UpstreamCallResult.ok, UpstreamResponse.ok] using h
  · next h => simpa [UpstreamCallResult.ok, UpstreamResponse.ok] using h

theorem ofResponse_body (context : Context) (now : Time) :
    (UpstreamClient.ofResponse C secrets context now r).response.bind (·.jsonBody) =
      r.scrubbed C secrets := by
  simp only [UpstreamClient.ofResponse, HttpResponse.scrubbed]
  split <;> rfl

theorem createdFits_iff :
    CreatedFits C t secrets r ↔
      (r.Success → ShortCreated C t.toResolvedTemplate (r.scrubbed C secrets)) := by
  constructor
  · intro hfits hok id hid
    obtain ⟨result, hbody, he⟩ := settleAnswer_eq C sampleRow {} secrets 0 t.toResolvedTemplate hok
    obtain ⟨v, hv, rfl⟩ := foundText_eq_some.mp hid
    obtain ⟨path, hpath⟩ := ResolvedTemplate.compiles_iff.mp t.compiles_fields.2.1
    have hraw := tryExtract_eq hpath (payloadOr (r.scrubbed C secrets))
    rw [HttpResponse.scrubbed, ← hbody] at hv hraw
    have hasks := asks_markSubmitted C sampleRow hv hraw
    rw [← he] at hasks
    obtain ⟨hlen, hnarrow⟩ := not_not.mp (hfits sampleRow {} 0 _ hasks)
    refine ⟨hlen, fun raw hraw' => hnarrow raw ?_⟩
    obtain ⟨v', hv', rfl⟩ := foundText_eq_some.mp hraw'
    rw [HttpResponse.scrubbed, ← hbody, hraw] at hv'
    simp [Except.ok.inj hv']
  · intro hshort task strategy now
    refine within_handleSubmitResult fun hok => ?_
    rw [ofResponse_body]
    exact hshort ((ofResponse_success _ _).mp hok)

/-- What a poll that finds a status goes on to. -/
def handleNative (C : Container) (task : AsyncTask) (t : ResolvedTemplate) (strategy : Strategy)
    (elapsed : Seconds) (snapshot : Option Json) (native : String) (result : UpstreamCallResult) :
    Handler Unit :=
  match t.mapsStatus native with
  | none => handleRunning task elapsed snapshot native
  | some .succeeded => handleSucceeded C task t snapshot native result
  | some .timeout => handleExpired task snapshot native
  | some _ => handleFailed task strategy snapshot native

/-- A task with no attempt left. -/
def spentRow : AsyncTask := { sampleRow with attempts := 1 }

/-- With no attempt left, the status of a poll is written at once. -/
theorem asks_handleNative (C : Container) (t : AcceptedTemplate) (elapsed : Seconds)
    (snapshot : Option Json) (native : String) (result : UpstreamCallResult) :
    ∃ op, (handleNative C spentRow t.toResolvedTemplate {} elapsed snapshot native result).Asks
        (.apply op none) ∧ (op.Fits → native.length ≤ 64) := by
  have hl : later 0 (.fin 0) = .ok 0 := by simp [later, datetimeEnd]
  have written : ∀ values : List Assign, Assign.rawStatus (some native) ∈ values →
      (∀ a ∈ values, a.Fits) → native.length ≤ 64 := fun values hmem h =>
    narrow_some.mp (h _ hmem)
  unfold handleNative
  split
  · refine ⟨.recordPollResult snapshot (some native) (some 0) [spentRow.status], ?_, narrow_some.mp⟩
    refine Prog.asks_perform_bind (0 : ℚ) (.inr ⟨.ok (0 : ℚ), ?_⟩)
    change ((raiseIn (later 0 (.fin 0))).bind _).Asks _
    rw [hl]
    exact .inl rfl
  · obtain ⟨path, hpath⟩ := ResolvedTemplate.compiles_iff.mp t.compiles_fields.2.2
    obtain ⟨snapshot', hsnap⟩ := restoreRawResultField_ok hpath snapshot result
    unfold handleSucceeded
    rw [hsnap]
    exact ⟨_, Prog.asks_perform_bind (0 : Time) (.inl rfl), written _ (by simp)⟩
  · exact ⟨_, Prog.asks_perform_bind (0 : Time) (.inl rfl), written _ (by simp)⟩
  · unfold handleFailed
    simp only
    rw [if_neg (by decide)]
    exact ⟨_, Prog.asks_perform_bind (0 : Time) (.inl rfl), written _ (by simp)⟩

theorem asks_native {result : UpstreamCallResult} {v : Json} (hok : result.ok = true)
    (hv : tryExtract (payloadOr (result.response.bind (·.jsonBody))) t.statusField =
      .ok (some v)) :
    ∃ op, (handlePollResult C spentRow t.toResolvedTemplate {} result).Asks (.apply op none) ∧
      (op.Fits → (C.pyStr v).length ≤ 64) := by
  obtain ⟨path, hpath⟩ := ResolvedTemplate.compiles_iff.mp t.compiles_fields.2.1
  obtain ⟨snapshot, hsnap⟩ := snapshotWithStatus_ok (t := t.toResolvedTemplate) hpath
    (result.response.bind (·.jsonBody)) (C.pyStr v)
  obtain ⟨op, hasks, hop⟩ := asks_handleNative C t
    (max 0 (0 - spentRow.startedAt.getD spentRow.createdAt)) snapshot (C.pyStr v) result
  refine ⟨op, Prog.asks_perform_bind (0 : Time) ?_, hop⟩
  simp only [hok, if_true, handlePolled]
  refine .inr ⟨.ok (), ?_⟩
  change ((raiseIn (ExpressionError.lift (tryExtract _ _))).bind _).Asks _
  rw [hv]
  change ((raiseIn (snapshotWithStatus _ _ _)).bind _).Asks _
  rw [hsnap]
  exact hasks

theorem pollFits_iff : PollFits C t secrets r ↔ ShortPolled C t secrets r := by
  constructor
  · intro hfits hok raw hraw
    obtain ⟨v, hv, rfl⟩ := foundText_eq_some.mp hraw
    have hsuccess : (UpstreamClient.ofResponse C secrets .poll 0 r).ok = true :=
      (ofResponse_success _ _).mpr hok
    rw [← ofResponse_body .poll 0] at hv
    obtain ⟨op, hasks, hop⟩ := asks_native hsuccess hv
    exact hop (not_not.mp (hfits _ _ _ _ hasks))
  · intro hshort task strategy now
    refine within_handlePollResult fun hok => ?_
    rw [ofResponse_body]
    exact hshort ((ofResponse_success _ _).mp hok)

/-- An object as it is, also where it is empty. -/
theorem payloadOr_obj (fields : Json.Fields) : payloadOr (some (.obj fields)) = .obj fields := by
  cases fields <;> rfl

theorem confirmFits_iff : ConfirmFits C t secrets r ↔ ShortConfirmed C t secrets r := by
  constructor
  · intro hfits hok fields hbody id hid
    obtain ⟨v, hv, rfl⟩ := foundText_eq_some.mp hid
    rw [payloadOr_obj] at hv
    by_cases hempty : C.pyStr v = ""
    · simp [hempty]
    · have hconfirmed : confirmationOf C t.toResolvedTemplate
          (UpstreamClient.ofResponse C secrets .poll 0 r) =
            .ok ⟨true, some (C.pyStr v), "confirmed created via query_by_client_key"⟩ := by
        have hsuccess : (UpstreamClient.ofResponse C secrets .poll 0 r).ok = true :=
          (ofResponse_success _ _).mpr hok
        simp [confirmationOf, hsuccess, ofResponse_body, hbody, hv, ExpressionError.lift, bind,
          Except.bind, Except.mapError]
      have hl : later 0 (.fin 1) = .ok 1 := by simp [later, datetimeEnd]
      have hasks : (settleConfirm C secrets r sampleRow t.toResolvedTemplate 0).Asks
          (.apply (.relocateCompensate (some (C.pyStr v)) upstreamSubmitted none none (some 1)
            (some "confirmed created via query_by_client_key")) none) := by
        unfold settleConfirm
        rw [hconfirmed]
        change (settleConfirmation _ _ _).Asks _
        simp only [settleConfirmation, nonEmpty_eq_some.mpr ⟨rfl, hempty⟩]
        refine .inr ⟨.ok (0 : ℚ), ?_⟩
        change ((raiseIn (later 0 (.fin 1))).bind _).Asks _
        rw [hl]
        exact .inl rfl
      exact narrow_some.mp (not_not.mp (hfits sampleRow 0 _ hasks)).1
  · intro hshort task now
    refine .bind_ofExcept fun c hc => within_settleConfirmation fun id hid => ?_
    obtain ⟨hok, fields, v, hbody, hv, rfl⟩ := confirmationOf_named hc hid
    rw [ofResponse_body] at hbody
    refine hshort ((ofResponse_success _ _).mp hok) fields hbody _
      (foundText_eq_some.mpr ⟨v, ?_, rfl⟩)
    rwa [payloadOr_obj]

end Answers

/-! ### The callback -/

section Callback

variable (R : Reception) (C : Container) (d : Delivery) (verify : CallbackVerifyResult)
  (payload : Json) (task : Option AsyncTask)

/-- The route once the task of the endpoint is known. -/
def receiveFor : CallbackHandler HttpAnswer := do
  let reading ← Prog.ofExcept (readCallback C d payload task)
  let fresh : Bool ← askCallback (.insertCallbackEvent
    (R.callbackRow C d verify payload task reading) (Reception.orphanOf d payload task reading))
  if fresh then Reception.applyFresh C payload reading task
  else do
    askCallback (.count "duplicate")
    pure duplicateAnswer

/-- What is read in the callback is short, and so is the key it is known by. -/
structure ShortReading (reading : CallbackReading) : Prop where
  channel : (Reception.channelOf d task).length ≤ 64
  upstreamId : Narrow 191 reading.upstreamId
  rawStatus : Narrow 64 reading.rawStatus
  eventId : ∀ eventId, nonEmpty d.eventId = some eventId → eventId.length ≤ 187
  /-- Without an event id the key is made of the two texts and the digest. -/
  derived : nonEmpty d.eventId = none →
    ((nonEmpty reading.upstreamId).getD "-").length +
      ((nonEmpty reading.rawStatus).getD "-").length ≤ 153

/-- What a callback is written as fits. -/
def CallbackFits : Prop :=
  (receiveFor R C d verify payload task).Avoids CallbackOp.Overflows

/-- What can be read in the callback is short. -/
def ShortCallback : Prop :=
  ∀ reading, readCallback C d payload task = .ok reading → ShortReading d task reading

variable {R C d verify payload task}

theorem length_callbackDedupKey {upstreamTaskId rawStatus : Option String} :
    (callbackDedupKey d.eventId upstreamTaskId rawStatus (R.bodyDigest d.raw)).length ≤ 191 ↔
      (∀ eventId, nonEmpty d.eventId = some eventId → eventId.length ≤ 187) ∧
        (nonEmpty d.eventId = none → ((nonEmpty upstreamTaskId).getD "-").length +
          ((nonEmpty rawStatus).getD "-").length ≤ 153) := by
  have hevent : ("evt:" : String).length = 4 := by decide
  have hsig : ("sig:" : String).length = 4 := by decide
  have hcolon : (":" : String).length = 1 := by decide
  unfold callbackDedupKey
  cases h : nonEmpty d.eventId with
  | some eventId =>
      simp only [String.length_append, hevent, Option.some.injEq, forall_eq', reduceCtorEq,
        false_implies, and_true]
      omega
  | none =>
      simp only [String.length_append, hsig, hcolon, R.digest_length, reduceCtorEq, false_implies,
        implies_true, true_and, true_implies]
      omega

theorem callbackFits_iff :
    CallbackFits R C d verify payload task ↔ ShortCallback C d payload task := by
  constructor
  · intro hfits reading hreading
    have hasks : (receiveFor R C d verify payload task).Asks (.insertCallbackEvent
        (R.callbackRow C d verify payload task reading)
        (Reception.orphanOf d payload task reading)) := by
      unfold receiveFor
      rw [hreading]
      exact .inl rfl
    obtain ⟨hrow, -⟩ := not_not.mp (hfits _ hasks)
    obtain ⟨hevent, hderived⟩ := length_callbackDedupKey.mp hrow.dedupKey
    exact ⟨hrow.channel, hrow.upstreamTaskId, hrow.rawStatus, hevent, hderived⟩
  · intro hshort
    refine .bind_ofExcept fun reading hreading => ?_
    have hr := hshort reading hreading
    have hrow : (R.callbackRow C d verify payload task reading).Fits :=
      ⟨hr.channel, length_callbackDedupKey.mpr ⟨hr.eventId, hr.derived⟩, hr.upstreamId,
        hr.rawStatus⟩
    have horphan : ∀ o ∈ Reception.orphanOf d payload task reading, o.Fits := by
      intro o ho
      unfold Reception.orphanOf at ho
      split at ho
      · next id hid =>
          cases ho
          exact ⟨hr.channel, hr.upstreamId _ (nonEmpty_eq_some.mp hid).1, hr.rawStatus⟩
      · cases ho
    refine .bind (.perform fun hn => hn ⟨hrow, horphan⟩) fun fresh => .ite ?_
      (.bind (.perform id) fun _ => .pure _)
    cases task with
    | none => exact .bind (.perform id) fun _ => .pure _
    | some task =>
        exact .bind (.lift (within_applyCallback hr.rawStatus)) fun _ =>
          .bind (.perform id) fun _ => .pure _

end Callback

/-! ### The replay -/

section Replay

variable (A : AdminApp) (parent : TaskRecord)

/-- The row of a replay fits. -/
def ReplayFits : Prop :=
  ∀ call t body credential,
    (A.createChild call parent t body credential).Avoids AdminOp.Overflows

/-- The key of the parent leaves room for the number of the attempt. -/
structure ShortReplay : Prop where
  key : (AdminApp.beforeAttempt parent.idempotencyKey.toList).length + 8 +
    (toString (max 1 (AdminApp.attemptOf parent.idempotencyKey + 1))).length ≤ 160
  tenant : parent.tenant.length ≤ 64
  channel : parent.channel.length ≤ 64

variable {A parent}

theorem length_retryKey (base : String) (attempt : ℤ) :
    (AdminApp.retryKey base attempt).length =
      (AdminApp.beforeAttempt base.toList).length + 8 + (toString (max 1 attempt)).length := by
  have hmark : ("#attempt" : String).length = 8 := by decide
  simp only [AdminApp.retryKey, String.length_append, String.length_ofList, hmark]

theorem replayFits_iff : ReplayFits A parent ↔ ShortReplay parent := by
  have hrow : ∀ t call childId bucketAt deadlineFrom token,
      (AdminApp.replayRow parent t call childId bucketAt deadlineFrom token).toAsyncTask.Fits ↔
        ShortReplay parent := by
    intro t call childId bucketAt deadlineFrom token
    constructor
    · intro h
      exact ⟨(length_retryKey _ _).symm.trans_le h.idempotencyKey, h.tenant, h.channel⟩
    · intro h
      exact ⟨(length_retryKey _ _).trans_le h.key, h.tenant, h.channel, narrow_none, narrow_none⟩
  constructor
  · intro hfits
    have hasks : ∀ call, (A.createChild call parent sampleTemplate [] "").Asks
        (.insert (AdminApp.replayRow parent sampleTemplate call "" 0 0 none)) := fun call =>
      Prog.asks_perform_bind "" (Prog.asks_perform_bind () (Prog.asks_perform_bind (0 : Time)
        (Prog.asks_perform_bind (0 : Time) (.inl rfl))))
    let call : AdminApp.ReplayCall := { actor := ⟨"operator", []⟩, taskId := parent.taskId }
    exact (hrow ..).mp (not_not.mp (hfits _ _ _ _ _ (hasks call)))
  · intro h call t body credential
    refine .bind (.perform id) fun childId => .bind (.perform id) fun _ =>
      .bind (.perform id) fun _ =>
      .bind (.perform id) fun _ => .bind (.ite (.bind (.perform id) fun _ => .pure _) (.pure _))
      fun token => .bind (.perform fun hn => hn ((hrow ..).mpr h)) fun _ =>
      .bind (.perform id) fun _ =>
      .bind (.perform id) fun _ => .bind (.perform id) fun _ => .pure _

end Replay

/-! ### All of them -/

/-- **What is written fits into its columns exactly where what was received is short**: a create
request, the answer to a create call, to a poll and to a confirmation query, a callback, and the
key of a task that is replayed.  A cancellation always fits. -/
theorem fits_iff_short (C : Container) (t : AcceptedTemplate) (R : Reception) (A : AdminApp) :
    (∀ (S : Authentication) H headers aliasName (r : CreateRequest),
        S.authenticate H headers aliasName = .ok r.auth →
        (CreateFits H r ↔ ShortRequest headers aliasName r.explicitKey)) ∧
      (∀ secrets (r : HttpResponse),
        (CreatedFits C t secrets r ↔
          (r.Success → ShortCreated C t.toResolvedTemplate (r.scrubbed C secrets))) ∧
        (PollFits C t secrets r ↔ ShortPolled C t secrets r) ∧
        (ConfirmFits C t secrets r ↔ ShortConfirmed C t secrets r)) ∧
      (∀ d verify payload task,
        CallbackFits R C d verify payload task ↔ ShortCallback C d payload task) ∧
      (∀ parent, ReplayFits A parent ↔ ShortReplay parent) ∧ Within (cancelUpstream C) := by
  refine ⟨?_, ?_, ?_, ?_, within_cancelUpstream⟩
  · intro S H headers aliasName r hauth
    exact createFits_iff hauth
  · intro secrets r
    exact ⟨createdFits_iff, pollFits_iff, confirmFits_iff⟩
  · intro d verify payload task
    exact callbackFits_iff
  · intro parent
    exact replayFits_iff

/-- The answer to the create call of the sample task that has the id. -/
def createdWith (id : String) : HttpResponse where
  statusCode := 200
  json := some (.obj [("id", .str id)])

/-- The sample container, with the redaction of the source. -/
def redactingContainer : Container := (sampleContainer sampleTemplate).redacting fun _ => false

/-- An id that fits is short, but for one the redaction changes or one too large to be read. -/
theorem length_le_of_createdWith {secrets : List String} {id : String}
    (hclean : Redaction.scrubText (fun _ => false) secrets id = id)
    (hsmall : (Json.str id).dumpsBytes ≤ maxResultBytes)
    (h : CreatedFits redactingContainer acceptedSample secrets (createdWith id)) :
    id.length ≤ 191 := by
  have hpath : compileExpression "$.id" = .ok [.key "id"] := rfl
  have hscrubbed : (createdWith id).scrubbed redactingContainer secrets =
      some (.obj [("id", .str id)]) := by
    have hid : Redaction.scrubPayload (fun _ => false) secrets (.obj [("id", .str id)]) =
        .obj [("id", .str id)] := by
      simp [Redaction.scrubPayload, Json.mapStrings, Json.mapFields, hclean]
    exact congrArg some hid
  have hfound : tryExtract (payloadOr (some (.obj [("id", .str id)]))) "$.id" =
      .ok (some (.str id)) := by
    rw [tryExtract_eq hpath, payloadOr_obj]
    simp [extract, not_lt.mpr hsmall]
  have hshort := createdFits_iff.mp h ⟨le_refl 200, (by decide : 200 < 300)⟩ id
  rw [hscrubbed] at hshort
  exact (hshort (foundText_eq_some.mpr ⟨.str id, hfound, rfl⟩)).1

/-- 192 characters that have the shape of no credential. -/
def longId : String := String.ofList (List.replicate 96 ['a', '-']).flatten

/-- **An id of 192 characters that the redaction leaves as it is overflows its column.** -/
theorem long_id_overflows :
    Redaction.scrubText (fun _ => false) ["Bearer key"] longId = longId ∧
      ¬ CreatedFits redactingContainer acceptedSample ["Bearer key"] (createdWith longId) := by
  have hclean : Redaction.scrubText (fun _ => false) ["Bearer key"] longId = longId := by
    decide +kernel
  refine ⟨hclean, fun h => ?_⟩
  have hlength : longId.length = 192 := by decide +kernel
  have hle := length_le_of_createdWith hclean ?_ h
  · rw [hlength] at hle
    exact absurd hle (by decide)
  · have hbytes := Json.stringBytes_le longId
    rw [String.length_toList, hlength] at hbytes
    exact hbytes.trans (by decide)

end AsyncGateway
