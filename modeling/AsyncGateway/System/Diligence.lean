import AsyncGateway.System.Bookkeeping

/-!
# System — the handlers keep their books

Every handler asks only for what `bookkeeping` allows, and ends with no credential left to drop
(`settles_books`).  Wherever a handler is not about to finalize a task it ended, nothing is due
(`AtRest`), and every function of it keeps that, one lemma for each; an ending is followed through
to its terminal audit event.
-/

namespace AsyncGateway

open TaskStatus TaskRuntime
open Interleave

variable {C : Container} {κ : Work} {q : Option AsyncTask → Prop}

/-- A handler of kind `κ` with nothing due; `q` is known of the row it loaded. -/
structure AtRest (κ : Work) (q : Option AsyncTask → Prop) (b : Book) : Prop where
  kind : b.kind = some κ
  ending : b.ending.settled = true
  loaded : q b.loaded

/-- Nothing is known of the row. -/
abbrev Any : Option AsyncTask → Prop := fun _ => True

theorem AtRest.any {b : Book} (h : AtRest κ q b) : AtRest κ Any b := ⟨h.kind, h.ending, trivial⟩

/-- `p` keeps its books. -/
abbrev Tidily {α : Type} (C : Container) (κ : Work) (q : Option AsyncTask → Prop)
    (p : Handler α) : Prop :=
  Preserves (bookkeeping C) (AtRest κ q) p

/-! ### Single operations -/

/-- The operations that are always allowed and move nothing in the books. -/
def Op.usual : Op → Bool
  | .load => false
  | .findTask _ _ => false
  | .readAttributes => false
  | .apply _ _ => false
  | .dropCredential => false
  | .audit _ => false
  | .putResponse _ _ => false
  | _ => true

@[simp] theorem hinder_of_settled {e : Ending} (h : e.settled = true) : e.hinder = e := by
  cases e <;> first | rfl | cases h

@[simp] theorem shown_of_settled {b : Book} (h : b.ending.settled = true)
    (row : Option AsyncTask) : b.shown row = b.ending := by
  unfold Book.shown
  split
  · next s hs =>
      rw [hs] at h
      cases h
  · rfl

/-- A failed operation moves nothing where nothing is due. -/
theorem AtRest.error {b : Book} (h : AtRest κ q b) :
    AtRest κ q { b with ending := b.ending.hinder } :=
  ⟨h.kind, by simp [h.ending], h.loaded⟩

theorem next_usual {b : Book} {o : Op} (h : o.usual = true) (a : o.Ans) :
    b.next C o (.ok a) = b := by
  cases o <;> first | rfl | cases h

theorem allows_usual {b : Book} {o : Op} (h : o.usual = true) : b.Allows o := by
  cases o <;> trivial

theorem tidily_ask {o : Op} (h : o.usual = true) : Tidily C κ q (ask o) :=
  .perform (fun _ _ => allows_usual h) fun b r hb => by
    cases r with
    | error x => exact hb.error
    | ok a =>
        rw [show (bookkeeping C).next b o (.ok a) = b from next_usual h a]
        exact hb

theorem tidily_enqueue {queue name : String} : Tidily C κ q (enqueue queue name) := tidily_ask rfl

theorem tidily_now : Tidily C κ q now_ := tidily_ask rfl

theorem tidily_raiseIn {α : Type} (r : Except Exn α) : Tidily C κ q (raiseIn r) := .ofExcept r

theorem tidily_backoff {attempt : ℤ} {base cap : Seconds} :
    Tidily C κ q (backoff attempt base cap) :=
  .bind (tidily_ask rfl) fun _ => tidily_raiseIn _

theorem tidily_nowPlus {delay : PyFloat} : Tidily C κ q (nowPlus delay) :=
  .bind tidily_now fun _ => tidily_raiseIn _

theorem tidily_audit {event : AuditEvent} (h : event.eventType ≠ .terminal) :
    Tidily C κ q (audit event) :=
  .perform (fun _ _ => fun ht => absurd ht h) fun b r hb => by
    cases r with
    | error x => exact hb.error
    | ok _ => simpa [bookkeeping, Book.next, h] using hb

/-- The writes that end no task. -/
def DaoOp.ends : DaoOp → Bool
  | .advance dst _ _ => isBusinessTerminal dst
  | _ => false

theorem presumes_of_not_ends {op : DaoOp} {loaded : Option AsyncTask} (h : op.ends = false) :
    presumes C loaded op = false := by
  unfold presumes
  split
  · cases h
  · cases h
  · rfl

theorem AtRest.apply {b : Book} (hb : AtRest κ q b) {op : DaoOp} (h : op.ends = false)
    (C : Container) (also : Option Message) (r : Except Exn Bool) :
    AtRest κ q (b.next C (.apply op also) r) := by
  cases r with
  | error x => exact hb.error
  | ok ok =>
      cases op with
      | advance dst expected values =>
          have hd : isBusinessTerminal dst = false := h
          cases ok
          · simpa [Book.next, presumes_of_not_ends h] using hb
          · simpa [Book.next, hd] using hb
      | _ => cases ok <;> exact hb

theorem tidily_apply {op : DaoOp} {also : Option Message} (h : op.ends = false)
    (hc : ∀ b, Careful b op) : Tidily C κ q (ask (.apply op also)) :=
  .perform (fun b _ => hc b) fun _ r hb => hb.apply h C also r

theorem tidily_noteAttribute {attributes : Json.Fields}
    (h : attributes.lookup refAttribute = none) : Tidily C κ q (noteAttribute attributes) := by
  intro b hb
  refine wp_bind.mpr (wp_perform.mpr ⟨trivial, fun r => ?_⟩)
  rcases r with x | found
  · exact hb.error
  · have hb' : AtRest κ q (b.next C .readAttributes (.ok found)) :=
      ⟨hb.kind, hb.ending, hb.loaded⟩
    cases found with
    | none => exact hb'
    | some read => exact wp_perform.mpr ⟨⟨rfl, h⟩, fun r => hb'.apply rfl C none r⟩

theorem tidily_noteChannelHealthy {channel : String} :
    Tidily C κ q (noteChannelHealthy C channel) :=
  .tryCatch (tidily_ask rfl) fun _ => .pure _

theorem tidily_enqueueSelfLater {delay : ℚ} : Tidily C κ q (enqueueSelfLater delay) :=
  .bind tidily_nowPlus fun _ => .bind (tidily_apply rfl fun _ => trivial) fun _ => .pure _

theorem tidily_pastDeadline {task : AsyncTask} : Tidily C κ q (pastDeadline task) := by
  unfold pastDeadline
  split
  · exact .pure _
  · exact .bind tidily_now fun _ => .pure _

/-- A handler with nothing due that is shown the task. -/
theorem AtRest.see {b : Book} (hb : AtRest κ Any b) (row : Option AsyncTask) :
    AtRest κ Any { b with loaded := row, ending := b.shown row } :=
  ⟨hb.kind, by simp [hb.ending], trivial⟩

theorem tidily_load : Tidily C κ Any loadTask :=
  .perform (fun _ _ => trivial) fun _ r hb => by
    rcases r with x | row
    · exact hb.error
    · exact hb.see row

theorem tidily_findTask {channel identifier : String} :
    Tidily C κ Any (ask (.findTask channel identifier)) :=
  .perform (fun _ hb => hb.ending) fun _ r hb => by
    rcases r with x | row
    · exact hb.error
    · exact hb.see row

/-! ### The end of a task -/

/-- A handler that ended the task as `s`, or takes it for ended so. -/
structure Ends (κ : Work) (q : Option AsyncTask → Prop) (s : TaskStatus) (b : Book) : Prop where
  kind : b.kind = some κ
  ending : b.ending = .due s ∨ b.ending = .presumed s
  loaded : q b.loaded

theorem Ends.error {s : TaskStatus} {b : Book} (h : Ends κ q s b) :
    AtRest κ q { b with ending := b.ending.hinder } :=
  ⟨h.kind, by rcases h.ending with he | he <;> simp [he, Ending.hinder, Ending.settled], h.loaded⟩

/-- The credential is dropped, and the end of the task audited. -/
theorem wp_dropAndAudit {s : TaskStatus} {b : Book} (h : Ends κ q s b) {event : AuditEvent}
    (hr : event.refs.lookup "status" = some (.str s.value)) :
    wp (bookkeeping C) (do ask .dropCredential; audit event) (fun _ b' => AtRest κ q b') b := by
  have audited : wp (bookkeeping C) (audit event) (fun _ b' => AtRest κ q b')
      { b with ending := .dropped s } := by
    have hd : AtRest κ q { b with ending := .dropped s } := ⟨h.kind, rfl, h.loaded⟩
    refine wp_perform.mpr ⟨fun _ => ⟨s, rfl, hr⟩, fun r => ?_⟩
    rcases r with x | ⟨⟨⟩⟩
    · exact hd.error
    · simp only [bookkeeping, Book.next]
      split
      · exact ⟨h.kind, rfl, h.loaded⟩
      · exact hd
  refine wp_bind.mpr (wp_perform.mpr ⟨.inl ⟨s, h.ending⟩, fun r => ?_⟩)
  rcases r with x | ⟨⟨⟩⟩
  · exact h.error
  · have hn : (bookkeeping C).next b .dropCredential (.ok ()) = { b with ending := .dropped s } := by
      rcases h.ending with he | he <;> simp [bookkeeping, Book.next, he]
    exact hn ▸ audited

theorem wp_terminalSample {s : TaskStatus} {b : Book} (h : Ends κ q s b) {task : AsyncTask} :
    wp (bookkeeping C) (terminalSample task) (fun r b' => match r with
      | .ok _ => Ends κ q s b'
      | .error _ => AtRest κ q b') b := by
  refine wp_bind.mpr (wp_perform.mpr ⟨trivial, fun r => ?_⟩)
  rcases r with x | now
  · exact h.error
  · refine wp_perform.mpr ⟨trivial, fun r => ?_⟩
    rcases r with x | ⟨⟨⟩⟩
    · exact h.error
    · exact h

theorem wp_finalizeTerminal {s : TaskStatus} {b : Book} (h : Ends κ q s b) {task : AsyncTask} :
    wp (bookkeeping C) (finalizeTerminal task s) (fun _ b' => AtRest κ q b') b := by
  refine wp_bind.mpr (wp_mono (fun r b' hr => ?_) (wp_terminalSample h))
  rcases r with x | ⟨⟨⟩⟩
  · exact hr
  · exact wp_dropAndAudit hr (by simp [terminalEvent])

theorem wp_finalizeSuccess {b : Book} (h : Ends κ q succeeded b) {task : AsyncTask}
    {t : ResolvedTemplate} :
    wp (bookkeeping C) (finalizeSuccess C task t) (fun _ b' => AtRest κ q b') b := by
  have rest : ∀ b', Ends κ q succeeded b' → wp (bookkeeping C) (do
      ask .dropCredential
      audit (terminalEvent task
        [("status", .str succeeded.value), ("alias", .str task.templateAlias)]))
      (fun _ b' => AtRest κ q b') b' := fun b' hb' =>
    wp_dropAndAudit hb' (by simp [terminalEvent])
  refine wp_bind.mpr (wp_mono (fun r b' hr => ?_) (wp_terminalSample h))
  rcases r with x | ⟨⟨⟩⟩
  · exact hr
  · refine wp_ite.mpr ⟨fun _ => wp_bind.mpr (wp_perform.mpr ⟨trivial, fun r => ?_⟩),
      fun _ => rest b' hr⟩
    rcases r with x | ⟨⟨⟩⟩
    · exact hr.error
    · exact rest b' hr

/-- A handler that does more than sweep. -/
theorem AtRest.finalizes {b : Book} (hb : AtRest κ q b) (hκ : κ.sweeps = false) :
    b.finalizes = true := by
  simp [Book.finalizes, hb.kind, hκ]

/-- An ending whose write hit. -/
theorem AtRest.due {b : Book} (hb : AtRest κ q b) (s : TaskStatus) :
    Ends κ q s { b with ending := .due s } := ⟨hb.kind, .inl rfl, hb.loaded⟩

/-- A task is ended: what follows depends on whether the write hit. -/
theorem tidily_end {dst : TaskStatus} {expected : Option (List TaskStatus)}
    {values : List Assign} {also : Option Message} {α : Type} {f : Bool → Handler α}
    (hκ : κ.sweeps = false) (hd : isBusinessTerminal dst = true) (hc : CarefulAdvance dst values)
    (hp : ∀ loaded, q loaded → presumes C loaded (.advance dst expected values) = false)
    (hit : ∀ b, Ends κ q dst b → wp (bookkeeping C) (f true) (fun _ b' => AtRest κ q b') b)
    (missed : Tidily C κ q (f false)) :
    Tidily C κ q ((ask (.apply (.advance dst expected values) also)).bind f) := by
  intro b hb
  refine wp_bind.mpr (wp_perform.mpr ⟨hc, fun r => ?_⟩)
  rcases r with x | (- | -)
  · exact hb.error
  · refine missed _ ?_
    simpa [bookkeeping, Book.next, hp _ hb.loaded] using hb
  · refine hit _ ?_
    simpa [bookkeeping, Book.next, hd, hb.finalizes hκ] using hb.due dst

/-- A task is ended, or taken for ended: what follows does not ask. -/
theorem tidily_presume {dst : TaskStatus} {expected : Option (List TaskStatus)}
    {values : List Assign} {also : Option Message} {α : Type} {f : Bool → Handler α}
    (hκ : κ.sweeps = false) (hd : isBusinessTerminal dst = true) (hc : CarefulAdvance dst values)
    (hp : ∀ loaded, q loaded → presumes C loaded (.advance dst expected values) = true)
    (hf : ∀ ok b, Ends κ q dst b → wp (bookkeeping C) (f ok) (fun _ b' => AtRest κ q b') b) :
    Tidily C κ q ((ask (.apply (.advance dst expected values) also)).bind f) := by
  intro b hb
  refine wp_bind.mpr (wp_perform.mpr ⟨hc, fun r => ?_⟩)
  rcases r with x | (- | -)
  · exact hb.error
  · refine hf _ _ ⟨?_, .inr ?_, ?_⟩ <;> simp [bookkeeping, Book.next, hp _ hb.loaded, hb.kind, hb.loaded]
  · refine hf _ _ ?_
    simpa [bookkeeping, Book.next, hd, hb.finalizes hκ] using hb.due dst

theorem tidily_advanceAndFinalize {task : AsyncTask} {dst : TaskStatus}
    {expected : List TaskStatus} {values : List Assign} (hκ : κ.sweeps = false)
    (hd : isBusinessTerminal dst = true) (hc : CarefulAdvance dst values)
    (hp : ∀ loaded, q loaded → presumes C loaded (.advance dst (some expected) values) = false) :
    Tidily C κ q (advanceAndFinalize task dst expected values) :=
  tidily_end hκ hd hc hp (fun _ hb => wp_finalizeTerminal hb) (.pure _)

/-- A sweep ends the task, and finalizes nothing. -/
theorem tidily_sweep {dst : TaskStatus} {expected : Option (List TaskStatus)}
    {values : List Assign} {also : Option Message} (hκ : κ.sweeps = true)
    (hc : CarefulAdvance dst values)
    (hp : ∀ loaded, presumes C loaded (.advance dst expected values) = false) :
    Tidily C κ q (ask (.apply (.advance dst expected values) also)) :=
  .perform (fun _ _ => hc) fun b r hb => by
    rcases r with x | (- | -)
    · exact hb.error
    · simpa [bookkeeping, Book.next, hp] using hb
    · simpa [bookkeeping, Book.next, Book.finalizes, hb.kind, hκ] using hb

/-! ### The writes -/

theorem careful_dead {code : ErrorCode} {message : Option String} {retryable : Bool} {now : Time} :
    CarefulAdvance dead (deadValues code message retryable now) := fun _ _ => by
  simp [deadValues, advanceValues, setDefault, internalTerminal, Assign.isFinishedAt,
    Assign.isNextPollAt, Assign.apply]

/-- A task that goes back to a submission, or that is found at work. -/
theorem careful_accepted {now : Time} : CarefulAdvance accepted (recreateValues now) := fun _ _ => by
  simp [recreateValues, advanceValues, internalTerminal, Assign.apply]

theorem careful_inProgress : CarefulAdvance inProgress [.unknownSince none] := fun _ _ => by
  simp [advanceValues, internalTerminal, Assign.apply]

/-! ### The submission -/

theorem tidily_submissionDead {task : AsyncTask} {code : ErrorCode} {message : Option String}
    {retryable : Bool} (hκ : κ.sweeps = false) :
    Tidily C κ q (submissionDead task code message retryable) :=
  .bind tidily_now fun _ => tidily_presume hκ rfl careful_dead
    (fun _ _ => by simp [presumes, deadValues]) fun _ _ hb => wp_finalizeTerminal hb

theorem tidily_releaseForUpstreamWait {task : AsyncTask} {delay : PyFloat} {code : ErrorCode}
    {message : Option String} {decrement : Bool} :
    Tidily C κ q (releaseForUpstreamWait C task submitSources delay code message decrement) := by
  refine .bind tidily_nowPlus fun _ => .bind (tidily_apply rfl fun _ => ?_) fun _ => ?_
  · simp [Careful, submitSources, businessTerminal]
  · exact .ite (fun _ => .bind (tidily_noteAttribute rfl) fun _ => .pure _) fun _ => .pure _

/-- An answer of the client that is a success is a success of the upstream. -/
def Genuine (result : UpstreamCallResult) : Prop :=
  result.ok = true → ∀ r, result.response = some r → r.ok = true

theorem genuine_ofResponse {secrets : List String} {context : Context} {now : Time}
    {response : HttpResponse} :
    Genuine (UpstreamClient.ofResponse C secrets context now response) := by
  unfold UpstreamClient.ofResponse
  simp only
  split
  · rintro - r ⟨⟩
    assumption
  · intro h
    simp [UpstreamCallResult.ok] at h

theorem genuine_ofHttpxError {context : Context} {exc : HttpxError} :
    Genuine (UpstreamClient.ofHttpxError context exc) := fun _ r h => by
  simp [UpstreamClient.ofHttpxError] at h

/-- A call of the client, whose success is one of the upstream. -/
theorem wp_call {purpose : Purpose} {request : RenderedRequest} {context : Context}
    {bearer : Option String} (b : Book) (hb : AtRest κ q b) :
    wp (bookkeeping C) (UpstreamClient.call C purpose request context bearer)
      (fun r b' => AtRest κ q b' ∧ ∀ result, r = .ok result → Genuine result) b := by
  refine wp_bind.mpr (wp_mono (fun r b₁ h₁ => ?_) (tidily_ask rfl b hb))
  rcases r with x | (- | violation)
  · exact ⟨h₁, by simp⟩
  · refine wp_bind.mpr (wp_mono (fun r b₂ h₂ => ?_) (tidily_ask rfl b₁ h₁))
    rcases r with x | -
    · exact ⟨h₂, by simp⟩
    · refine wp_bind.mpr (wp_mono (fun r b₃ h₃ => ?_) (tidily_ask rfl b₂ h₂))
      rcases r with x | (exc | response)
      · exact ⟨h₃, by simp⟩
      · exact ⟨h₃, fun _ h => Except.ok.inj h ▸ genuine_ofHttpxError⟩
      · refine wp_bind.mpr (wp_mono (fun r b₄ h₄ => ?_) (tidily_now b₃ h₃))
        rcases r with x | now
        · exact ⟨h₄, by simp⟩
        · exact ⟨h₄, fun _ h => Except.ok.inj h ▸ genuine_ofResponse⟩
  · exact ⟨h₁, fun _ h => Except.ok.inj h ▸ fun ho => by simp [UpstreamCallResult.ok] at ho⟩

theorem tidily_call {purpose : Purpose} {request : RenderedRequest} {context : Context}
    {bearer : Option String} :
    Tidily C κ q (UpstreamClient.call C purpose request context bearer) := fun b hb =>
  wp_mono (fun _ _ h => h.1) (wp_call b hb)

/-- The archived answer to a create call that succeeded. -/
theorem tidily_putResponse {key : String} {response : ArchivedResponse}
    (h : κ.submitsInline = true ∨ response.good) :
    Tidily C κ q (ask (.putResponse key response)) :=
  .perform (fun b hb => h.imp (by simp [hb.kind]) id) fun b r hb => by
    rcases r with x | ⟨⟨⟩⟩
    · exact hb.error
    · exact hb

theorem tidily_handleCreated {task : AsyncTask} {t : ResolvedTemplate}
    {result : UpstreamCallResult} (hf : ∀ r, result.response = some r → r.ok = true) :
    Tidily C κ q (handleCreated C task t result) := by
  refine .bind_ofExcept fun found _ => ?_
  cases found with
  | none => exact .bind (tidily_apply rfl fun _ => trivial) fun _ => tidily_enqueue
  | some upstreamId =>
      have rest : Tidily C κ q (do
          if task.cancelRequested then enqueue "cancel:default" "cancel_upstream" else pure ()
          noteChannelHealthy C task.channel
          enqueue (pollQueue t.pool) "poll_upstream") := by
        have polled : Tidily C κ q (do
            noteChannelHealthy C task.channel
            enqueue (pollQueue t.pool) "poll_upstream") :=
          .bind tidily_noteChannelHealthy fun _ => tidily_enqueue
        exact .ite (fun _ => .bind tidily_enqueue fun _ => polled) fun _ => polled
      refine .bind_ofExcept fun rawStatus _ => .bind (tidily_ask rfl) fun _ =>
        .bind tidily_now fun _ => .bind_ofExcept fun _ _ =>
          .bind (tidily_apply rfl fun _ => trivial) fun ok => .ite (fun _ => ?_) fun _ => .pure _
      refine .bind (tidily_noteAttribute rfl) fun _ => ?_
      cases hr : result.response with
      | none => exact rest
      | some response =>
          have hok := hf response hr
          simp only [UpstreamResponse.ok, decide_eq_true_eq] at hok
          exact .bind (tidily_putResponse (.inr (.inr hok))) fun _ => rest

theorem tidily_handleSubmitResult {task : AsyncTask} {t : ResolvedTemplate} {strategy : Strategy}
    {result : UpstreamCallResult} (hκ : κ.sweeps = false) (hf : Genuine result) :
    Tidily C κ q (handleSubmitResult C task t strategy result) := by
  refine .ite (fun _ => tidily_submissionDead hκ) fun _ => .ite
    (fun hok => tidily_handleCreated (hf hok)) fun _ => ?_
  cases result.classification with
  | none => exact .raise _
  | some c =>
      refine .ite (fun _ => ?_) fun _ => .ite (fun _ => ?_) fun _ => .ite
        (fun _ => tidily_submissionDead hκ) fun _ => .ite (fun _ => ?_) fun _ => .ite
        (fun _ => tidily_submissionDead hκ) fun _ => ?_
      · exact .bind (tidily_ask rfl) fun _ => .bind (tidily_ask rfl) fun _ =>
          .bind tidily_releaseForUpstreamWait fun _ => .pure _
      · exact .bind (tidily_ask rfl) fun _ => .bind tidily_backoff fun _ =>
          .bind tidily_releaseForUpstreamWait fun _ => .bind (tidily_noteAttribute rfl) fun _ =>
            tidily_audit (by simp [governance])
      · exact .bind (tidily_apply rfl fun _ => trivial) fun _ => tidily_enqueue
      · refine .bind tidily_backoff fun _ => .bind tidily_nowPlus fun _ =>
          .bind (tidily_apply rfl fun _ => ?_) fun _ => .pure _
        simp [Careful, submitSources, businessTerminal]

theorem tidily_loadCreateBody {task : AsyncTask} : Tidily C κ q (loadCreateBody task) := by
  unfold loadCreateBody
  split
  · exact .pure _
  · refine .bind (tidily_ask rfl) fun found => ?_
    split <;> exact .pure _

theorem tidily_submitWithSlot {task : AsyncTask} {t : ResolvedTemplate} {strategy : Strategy}
    {bearer : String} (hκ : κ.sweeps = false) :
    Tidily C κ q (submitWithSlot C task t strategy bearer) := by
  refine .bind (tidily_apply rfl fun _ => trivial) fun _ => .ite (fun _ => ?_) fun _ => .pure _
  refine .bind tidily_loadCreateBody fun body => ?_
  cases body with
  | none =>
      refine .bind tidily_now fun _ =>
        tidily_advanceAndFinalize hκ rfl careful_dead fun _ _ => ?_
      simp [presumes, deadValues, submitSources]
  | some body =>
      exact .bind_ofExcept fun _ _ => .bind_value wp_call fun _ hf =>
        tidily_handleSubmitResult hκ hf

theorem tidily_withSlot {task : AsyncTask} {body : Handler Unit} (hb : Tidily C κ q body) :
    Tidily C κ q (withSlot C task body) :=
  .bind (tidily_ask rfl) fun _ => .ite (fun _ => .tryFinally hb (tidily_ask rfl)) fun _ =>
    tidily_enqueueSelfLater

theorem tidily_template {task : AsyncTask} {α : Type} {f : ResolvedTemplate × Strategy → Handler α}
    (hf : ∀ t strategy, templateOf C task = some t → Tidily C κ q (f (t, strategy))) :
    Tidily C κ q ((template C task).bind f) := by
  show Tidily C κ q (((Prog.ofExcept (C.require task.templateAlias task.templateVersion)).bind
    fun t => .pure (t, C.strategyFor task.channel t)).bind f)
  cases h : C.require task.templateAlias task.templateVersion with
  | error x => exact .raise x
  | ok t =>
      refine hf t _ ?_
      unfold Container.require at h
      split at h <;> cases h
      assumption

theorem tidily_submitLoaded {task : AsyncTask} (hκ : κ.sweeps = false) :
    Tidily C κ q (submitLoaded C task) := by
  refine tidily_template fun t strategy _ => .bind tidily_pastDeadline fun _ =>
    .ite (fun _ => ?_) fun _ => .ite (fun _ => ?_) fun _ => .bind (tidily_ask rfl) fun bearer => ?_
  · refine tidily_advanceAndFinalize hκ rfl (fun _ _ => ?_) fun _ _ => rfl
    simp [advanceValues, setDefault, internalTerminal, Assign.isFinishedAt, Assign.isNextPollAt,
      Assign.apply]
  · refine tidily_advanceAndFinalize hκ rfl (fun _ _ => ?_) fun _ _ => rfl
    simp [advanceValues, setDefault, internalTerminal, Assign.isNextPollAt, Assign.apply]
  · split
    · refine .bind tidily_now fun _ => tidily_presume hκ rfl careful_dead (fun _ _ => ?_)
        fun _ _ hb => wp_finalizeTerminal hb
      simp [presumes, deadValues]
    · exact tidily_withSlot (tidily_submitWithSlot hκ)

theorem tidily_submitUpstream (hκ : κ.sweeps = false) : Tidily C κ Any (submitUpstream C) :=
  .bind tidily_load fun row => by
    cases row with
    | none => exact .pure _
    | some task => exact .ite (fun _ => tidily_submitLoaded hκ) fun _ => .pure _

/-! ### The inline submission -/

theorem tidily_mustReload : Tidily C κ Any mustReload :=
  .bind tidily_load fun row => by
    cases row with
    | none => exact .raise _
    | some task => exact .pure _

theorem tidily_inlineAnswer {req : AcceptedRequest} {t : ResolvedTemplate}
    {result : UpstreamCallResult} (hκ : κ.submitsInline = true) :
    Tidily C κ Any (inlineAnswer req t result) := by
  refine .bind tidily_mustReload fun task => .ite (fun _ => ?_) fun _ => .ite (fun _ => ?_)
    fun _ => ?_
  · exact .bind (tidily_putResponse (.inl hκ)) fun _ => .bind tidily_enqueue fun _ => .pure _
  · exact .bind (tidily_putResponse (.inl hκ)) fun _ => .pure _
  · exact .bind (tidily_putResponse (.inl hκ)) fun _ => .pure _

theorem tidily_inlineCall {req : AcceptedRequest} {t : ResolvedTemplate}
    (hκ : κ.sweeps = false) : Tidily C κ Any (inlineCall C req t) :=
  .bind tidily_load fun _ => .bind_ofExcept fun _ _ => .bind_value wp_call fun _ hf =>
    .bind tidily_mustReload fun _ => .bind (tidily_handleSubmitResult hκ hf) fun _ => .pure _

theorem tidily_inlineSubmit {req : AcceptedRequest} {t : ResolvedTemplate}
    (hκ : κ.sweeps = false) (hi : κ.submitsInline = true) :
    Tidily C κ Any (inlineSubmit C req t) := by
  refine .bind (tidily_apply rfl fun _ => trivial) fun _ => .ite (fun _ => ?_) fun _ =>
    .bind tidily_enqueue fun _ => .pure _
  refine .bind (tidily_ask rfl) fun _ => .ite (fun _ => ?_) fun _ => ?_
  · exact .bind (.tryFinally (tidily_inlineCall hκ) (tidily_ask rfl)) fun _ =>
      tidily_inlineAnswer hi
  · refine .bind tidily_now fun _ => .bind (tidily_apply rfl fun _ => ?_) fun _ =>
      .bind tidily_enqueue fun _ => .raise _
    simp [Careful, businessTerminal]

/-! ### The confirmation -/

theorem tidily_confirm {task : AsyncTask} {t : ResolvedTemplate} {bearer : Option String} :
    Tidily C κ q (confirm C task t bearer) := by
  unfold confirm
  split
  · exact .bind_ofExcept fun _ _ => .bind tidily_call fun _ => .ofExcept _
  · split <;> exact .pure _
  · exact .pure _

theorem tidily_settleConfirmation {task : AsyncTask} {t : ResolvedTemplate} {c : Confirmation} :
    Tidily C κ q (settleConfirmation task t c) := by
  unfold settleConfirmation
  split
  · exact .bind tidily_nowPlus fun _ => .bind (tidily_apply rfl fun _ => trivial) fun _ =>
      tidily_enqueue
  · exact .bind tidily_now fun _ => .bind (tidily_apply rfl fun _ => careful_accepted) fun _ =>
      .ite (fun _ => tidily_ask rfl) fun _ => .pure _
  · exact .bind tidily_backoff fun _ => .bind tidily_nowPlus fun _ =>
      .bind (tidily_apply rfl fun _ => trivial) fun _ => .pure _

theorem tidily_awaitHuman {task : AsyncTask} {code : ErrorCode} {message : String}
    (hκ : κ.sweeps = false) : Tidily C κ q (awaitHuman task code message) := by
  refine tidily_advanceAndFinalize hκ rfl (fun _ _ => ?_) fun _ _ => rfl
  simp [advanceValues, setDefault, internalTerminal, Assign.isFinishedAt, Assign.isNextPollAt,
    Assign.apply]

theorem tidily_compensateLoaded {task : AsyncTask} (hκ : κ.sweeps = false) :
    Tidily C κ q (compensateLoaded C task) := by
  refine tidily_template fun t strategy _ => .ite (fun _ => tidily_awaitHuman hκ) fun _ => ?_
  split
  · exact .bind tidily_now fun _ => .bind (tidily_apply rfl fun _ => trivial) fun _ =>
      .ite (fun _ => tidily_enqueue) fun _ => .pure _
  · exact .bind tidily_now fun _ => .ite (fun _ => tidily_awaitHuman hκ) fun _ => .ite
      (fun _ => tidily_awaitHuman hκ) fun _ => .bind (tidily_ask rfl) fun _ =>
        .bind tidily_confirm fun _ => tidily_settleConfirmation

theorem tidily_compensateOrphan (hκ : κ.sweeps = false) : Tidily C κ Any (compensateOrphan C) :=
  .bind tidily_load fun row => by
    cases row with
    | none => exact .pure _
    | some task => exact .ite (fun _ => tidily_compensateLoaded hκ) fun _ => .pure _

/-! ### The polls -/

theorem tidily_pollOnce {task : AsyncTask} {t : ResolvedTemplate} {bearer : Option String} :
    Tidily C κ q (pollOnce C task t bearer) :=
  .bind (tidily_raiseIn _) fun _ => tidily_call

theorem tidily_reschedule {task : AsyncTask} {elapsed : Seconds} {seconds : Option Seconds} :
    Tidily C κ q (reschedule task elapsed seconds) := by
  have rest : ∀ interval : Seconds, Tidily C κ q (do
      let next ← nowPlus (.fin interval)
      let _ ← applyOp (.scheduleNextPoll next)
      pure ()) := fun _ =>
    .bind tidily_nowPlus fun _ => .bind (tidily_apply rfl fun _ => trivial) fun _ => .pure _
  unfold reschedule
  split
  · exact rest _
  · exact .bind (tidily_ask rfl) fun _ => rest _

theorem tidily_enterPollUnrecognized {task : AsyncTask} {result : UpstreamCallResult}
    {reason : String} (hs : task.status ∉ businessTerminal) :
    Tidily C κ q (enterPollUnrecognized task result reason) := by
  refine .bind tidily_nowPlus fun _ => .ite (fun _ => ?_) fun _ => ?_
  · refine .bind (tidily_apply rfl fun _ => ?_) fun _ => .pure _
    simpa [Careful] using hs
  · refine .bind tidily_now fun now => .bind (tidily_apply rfl fun _ _ _ => ?_) fun _ =>
      tidily_audit (by simp [governance])
    simp [advanceValues, internalTerminal, Assign.apply]

/-- A task that goes in doubt, with an advance of its own. -/
theorem careful_doubt {code : ErrorCode} {message : Option String} {since next : Time} :
    CarefulAdvance submitUnknown [.errorCode (some code), .errorMessage message,
      .unknownSince (some since), .nextPollAt (some next)] := fun _ _ => by
  simp [advanceValues, internalTerminal, Assign.apply]

theorem tidily_handlePollError {task : AsyncTask} {elapsed : Seconds}
    {result : UpstreamCallResult} (hκ : κ.sweeps = false)
    (hs : task.status ∈ [upstreamSubmitted, inProgress, pollUnrecognized]) :
    Tidily C κ q (handlePollError C task elapsed result) := by
  have failure : ∀ {code message retryable next} (b : Book),
      Careful b (.markFailure [task.status] code message retryable next none) := by
    intro _ _ _ _ _ s h
    exact List.mem_singleton.mp h ▸ hs
  refine .ite (fun _ => ?_) fun _ => ?_
  · refine .bind tidily_now fun _ => tidily_presume hκ rfl careful_dead (fun _ _ => ?_)
      fun _ _ hb => wp_finalizeTerminal hb
    simp [presumes, deadValues]
  cases result.classification with
  | none => exact tidily_reschedule
  | some classification =>
      refine .ite (fun _ => ?_) fun _ => .ite (fun _ => ?_) fun _ => .ite (fun _ => ?_) fun _ => ?_
      · exact .bind (tidily_ask rfl) fun _ => .bind tidily_nowPlus fun _ =>
          .bind (tidily_apply rfl failure) fun _ => .pure _
      · exact .bind (tidily_ask rfl) fun _ => .bind (tidily_audit (by simp [governance])) fun _ =>
          .bind tidily_backoff fun _ => tidily_reschedule
      · refine .ite (fun _ => ?_) fun _ => ?_
        · exact .bind (tidily_noteAttribute rfl) fun _ => .bind tidily_backoff fun _ =>
            tidily_reschedule
        · exact .bind tidily_now fun _ => .bind (tidily_apply rfl fun _ => careful_doubt) fun _ =>
            tidily_enqueue
      · exact .bind (tidily_apply rfl failure) fun _ => tidily_reschedule

theorem tidily_handleRunning {task : AsyncTask} {elapsed : Seconds} {snapshot : Option Json}
    {native : String} (hs : task.status ∉ businessTerminal) :
    Tidily C κ q (handleRunning task elapsed snapshot native) := by
  refine .bind (tidily_ask rfl) fun _ => .bind tidily_nowPlus fun _ =>
    .bind (tidily_apply rfl fun _ => ?_) fun _ => .ite (fun _ => .pure _) fun _ =>
      .bind (tidily_apply rfl fun _ => careful_inProgress) fun _ => .pure _
  simpa [Careful] using hs

theorem tidily_handleSucceeded {task : AsyncTask} {t : ResolvedTemplate} {snapshot : Option Json}
    {native : String} {result : UpstreamCallResult} (hκ : κ.sweeps = false) :
    Tidily C κ q (handleSucceeded C task t snapshot native result) := by
  refine .bind (tidily_raiseIn _) fun _ => .bind tidily_now fun _ =>
    tidily_end hκ rfl (fun _ _ => ?_) (fun _ _ => rfl) (fun _ hb => wp_finalizeSuccess hb) (.pure _)
  simp [advanceValues, setDefault, internalTerminal, Assign.isFinishedAt, Assign.apply]

theorem tidily_handleExpired {task : AsyncTask} {snapshot : Option Json} {native : String}
    (hκ : κ.sweeps = false) : Tidily C κ q (handleExpired task snapshot native) := by
  refine .bind tidily_now fun _ =>
    tidily_advanceAndFinalize hκ rfl (fun _ _ => ?_) fun _ _ => rfl
  simp [advanceValues, setDefault, internalTerminal, Assign.isFinishedAt, Assign.isNextPollAt,
    Assign.apply]

theorem tidily_handleFailed {task : AsyncTask} {strategy : Strategy} {snapshot : Option Json}
    {native : String} (hκ : κ.sweeps = false) :
    Tidily C κ q (handleFailed task strategy snapshot native) := by
  refine .ite (fun _ => ?_) fun _ => ?_
  · refine .bind tidily_now fun _ => .bind tidily_backoff fun _ => .bind tidily_nowPlus fun _ =>
      .bind (tidily_apply rfl fun _ _ _ => ?_) fun _ =>
        .ite (fun _ => tidily_audit (by simp [governance])) fun _ => .pure _
    simp [advanceValues, internalTerminal, Assign.apply]
  · refine .bind tidily_now fun _ =>
      tidily_advanceAndFinalize hκ rfl (fun _ _ => ?_) fun _ _ => rfl
    simp [advanceValues, setDefault, internalTerminal, Assign.isFinishedAt, Assign.isNextPollAt,
      Assign.apply]

theorem tidily_handlePolled {task : AsyncTask} {t : ResolvedTemplate} {strategy : Strategy}
    {elapsed : Seconds} {result : UpstreamCallResult} (hκ : κ.sweeps = false)
    (hs : task.status ∉ businessTerminal) :
    Tidily C κ q (handlePolled C task t strategy elapsed result) := by
  refine .bind tidily_noteChannelHealthy fun _ => .bind_ofExcept fun found _ => ?_
  cases found with
  | none => exact tidily_enterPollUnrecognized hs
  | some v =>
      refine .bind_ofExcept fun snapshot _ => ?_
      cases hm : t.mapsStatus (C.pyStr v) with
      | none => exact tidily_handleRunning hs
      | some mapped =>
          rcases mapsStatus_cases hm with rfl | rfl | rfl
          · exact tidily_handleSucceeded hκ
          · exact tidily_handleExpired hκ
          · exact tidily_handleFailed hκ

theorem tidily_handlePollResult {task : AsyncTask} {t : ResolvedTemplate} {strategy : Strategy}
    {result : UpstreamCallResult} (hκ : κ.sweeps = false) (hs : task.status ∉ businessTerminal)
    (he : result.ok = false → task.status ∈ [upstreamSubmitted, inProgress, pollUnrecognized]) :
    Tidily C κ q (handlePollResult C task t strategy result) :=
  .bind tidily_now fun _ => .ite (fun _ => tidily_handlePolled hκ hs) fun hok =>
    tidily_handlePollError hκ (he (by simpa using hok))

theorem tidily_pollLoaded {task : AsyncTask} (hκ : κ.sweeps = false)
    (hp : task.status ∈ [upstreamSubmitted, inProgress, pollUnrecognized]) :
    Tidily C κ q (pollLoaded C task) := by
  have hs : task.status ∉ businessTerminal := by
    revert hp
    cases task.status <;> decide
  refine tidily_template fun t strategy _ => .bind tidily_pastDeadline fun _ =>
    .ite (fun _ => ?_) fun _ => .bind (tidily_ask rfl) fun _ =>
      .ite (fun _ => tidily_enqueueSelfLater) fun _ => ?_
  · refine .bind tidily_now fun _ =>
      tidily_advanceAndFinalize hκ rfl (fun _ _ => ?_) fun _ _ => rfl
    simp [advanceValues, setDefault, internalTerminal, Assign.isFinishedAt, Assign.isNextPollAt,
      Assign.apply]
  · split
    · exact .bind tidily_now fun _ => .bind (tidily_apply rfl fun _ => careful_doubt) fun _ =>
        .pure _
    · exact .bind (tidily_ask rfl) fun _ => tidily_withSlot <| .bind tidily_pollOnce fun _ =>
        tidily_handlePollResult hκ hs fun _ => hp

theorem tidily_pollUpstream (hκ : κ.sweeps = false) : Tidily C κ Any (pollUpstream C) :=
  .bind tidily_load fun row => by
    cases row with
    | none => exact .pure _
    | some task =>
        exact .ite (fun _ => tidily_enqueue) fun _ =>
          .ite (fun hp => tidily_pollLoaded hκ hp) fun _ => .pure _

/-! ### The cancellation, the transfer and the end of a task -/

/-- The template of a loaded row has a cancellation, or has none. -/
theorem presumes_cancelled {task : AsyncTask} {t : ResolvedTemplate} (ht : templateOf C task = some t)
    {expected : Option (List TaskStatus)} {code : Option ErrorCode} {values : List Assign} :
    presumes C (some task) (.advance cancelled expected (.errorCode code :: values)) =
      !t.capabilities.cancel := by
  simp [presumes, ht]

theorem tidily_cancelDegraded {task : AsyncTask} {t : ResolvedTemplate} (hκ : κ.sweeps = false)
    (ht : templateOf C task = some t) (hc : t.capabilities.cancel = false) :
    Tidily C κ (· = some task) (cancelDegraded task) := by
  refine .bind (tidily_noteAttribute rfl) fun _ => .ite (fun _ => .bind tidily_now fun _ =>
    tidily_presume hκ rfl (fun _ _ => ?_) ?_ fun _ _ hb => wp_finalizeTerminal hb) fun _ =>
      tidily_enqueueSelfLater
  · simp [advanceValues, setDefault, internalTerminal, Assign.isFinishedAt, Assign.isNextPollAt,
      Assign.apply]
  · rintro _ rfl
    rw [presumes_cancelled ht, hc]
    rfl

theorem tidily_cancelCall {task : AsyncTask} {t : ResolvedTemplate} {upstreamTaskId : String}
    (hκ : κ.sweeps = false) : Tidily C κ q (cancelCall C task t upstreamTaskId) := by
  refine .bind (tidily_ask rfl) fun _ => .bind_ofExcept fun _ _ => .bind tidily_call fun _ =>
    .ite (fun _ => ?_) fun _ => ?_
  · refine .bind tidily_now fun _ =>
      tidily_advanceAndFinalize hκ rfl (fun _ _ => ?_) fun _ _ => rfl
    simp [advanceValues, setDefault, internalTerminal, Assign.isFinishedAt, Assign.isNextPollAt,
      Assign.apply]
  · exact .bind (tidily_noteAttribute rfl) fun _ => .bind tidily_backoff fun _ =>
      tidily_enqueueSelfLater

theorem tidily_cancelLoaded {task : AsyncTask} (hκ : κ.sweeps = false) :
    Tidily C κ (· = some task) (cancelLoaded C task) := by
  refine tidily_template fun t _ ht => .ite (fun hc => ?_) fun hc => ?_
  · exact tidily_cancelDegraded hκ ht (by simpa using hc)
  · split
    · refine .bind tidily_now fun _ => tidily_advanceAndFinalize hκ rfl (fun _ _ => ?_) ?_
      · simp [advanceValues, setDefault, internalTerminal, Assign.isFinishedAt,
          Assign.isNextPollAt, Assign.apply]
      · rintro _ rfl
        rw [presumes_cancelled ht]
        simpa using hc
    · exact tidily_cancelCall hκ

/-- A handler that begins with the task, and goes by what it loaded. -/
theorem wp_load {f : Option AsyncTask → Handler Unit} {b : Book} (hb : AtRest κ Any b)
    (hf : ∀ row, Tidily C κ (· = row) (f row)) :
    wp (bookkeeping C) (loadTask.bind f) (fun _ b' => AtRest κ Any b') b := by
  refine wp_bind.mpr (wp_perform.mpr ⟨trivial, fun r => ?_⟩)
  rcases r with x | row
  · exact hb.error
  · exact wp_mono (fun _ _ h => h.any) (hf row _ ⟨hb.kind, (hb.see row).ending, rfl⟩)

theorem tidily_cancelUpstream (hκ : κ.sweeps = false) : Tidily C κ Any (cancelUpstream C) :=
  fun _ hb => wp_load hb fun row => by
    cases row with
    | none => exact .pure _
    | some task => exact .ite (fun _ => .pure _) fun _ => tidily_cancelLoaded hκ

/-- The credential of a task that is loaded as ended. -/
theorem tidily_dropCredential {task : AsyncTask} (h : isBusinessTerminal task.status = true) :
    Tidily C κ (· = some task) (ask .dropCredential) :=
  .perform (fun b hb => .inr (by simp [hb.loaded, h])) fun b r hb => by
    rcases r with x | ⟨⟨⟩⟩
    · exact hb.error
    · obtain ⟨kind, loaded, read, ending⟩ := b
      cases ending <;> first | exact hb | cases hb.ending

/-- What is left to do for a task that ended. -/
theorem tidily_finalizeLoaded {task : AsyncTask} (h : isBusinessTerminal task.status = true) :
    Tidily C κ (· = some task) (do
      let (t, _) ← template C task
      if task.status = succeeded ∧ t.resultPolicy.mode = .store ∧ C.hasResultStore ∧
          task.resultRef = none then
        ask (.enqueue { queue := transferQueue, name := "store_result", attempt := some 1 })
      else pure ()
      ask .dropCredential) :=
  tidily_template fun _ _ _ =>
    .ite (fun _ => .bind (tidily_ask rfl) fun _ => tidily_dropCredential h) fun _ =>
      tidily_dropCredential h

theorem tidily_finalizeTask : Tidily C κ Any (finalizeTask C) :=
  fun _ hb => wp_load hb fun row => by
    cases row with
    | none => exact .pure _
    | some task => exact .ite (fun ht => tidily_finalizeLoaded ht) fun _ => .pure _

theorem tidily_fetchResult {url : String} : Tidily C κ q (fetchResult C url) := by
  refine .bind (tidily_ask rfl) fun violation => ?_
  cases violation with
  | some violation => exact .pure _
  | none =>
      refine .bind (tidily_ask rfl) fun _ => .bind (tidily_ask rfl) fun r => ?_
      cases r with
      | error exc => exact .pure _
      | ok response =>
          exact .ite (fun _ => .pure _) fun _ => .ite (fun _ => .pure _) fun _ => .pure _

theorem tidily_transferFailed {task : AsyncTask} {detail : String} {refs : Json.Fields}
    {note : String} : Tidily C κ q (transferFailed task detail refs note) :=
  .bind (tidily_apply rfl fun _ => trivial) fun _ => tidily_audit (by simp [governance])

theorem tidily_transfer {task : AsyncTask} {attempt : ℤ} {url : String} :
    Tidily C κ q (transfer C task attempt url) := by
  refine .bind (tidily_ask rfl) fun _ => .bind tidily_fetchResult fun fetched => ?_
  split
  · exact .bind (tidily_ask rfl) fun _ => .bind (tidily_apply rfl fun _ => rfl) fun _ =>
      .ite (fun _ => tidily_audit (by simp)) fun _ => .pure _
  · exact .ite (fun _ => .bind tidily_backoff fun _ => .bind tidily_nowPlus fun _ =>
      .bind (tidily_apply rfl fun _ => trivial) fun _ => .pure _) fun _ => tidily_transferFailed

theorem tidily_storeResult {attempt : ℤ} : Tidily C κ Any (storeResult C attempt) :=
  .bind tidily_load fun row => by
    cases row with
    | none => exact .pure _
    | some task =>
        refine .ite (fun _ => tidily_template fun t _ _ => .ite (fun _ => .pure _) fun _ =>
          .bind_ofExcept fun found _ => ?_) fun _ => .pure _
        split
        · exact tidily_transfer
        · exact tidily_transferFailed

/-! ### The routes -/

theorem tidily_refresh {task : AsyncTask} {t : ResolvedTemplate} {strategy : Strategy}
    {bearer : Option String} (hκ : κ.sweeps = false) (hs : task.status ∉ businessTerminal) :
    Tidily C κ Any (refresh C task t strategy bearer) :=
  .tryCatch (.bind tidily_pollOnce fun _ => .ite (fun hok =>
    .bind (tidily_handlePollResult hκ hs fun h => by simp [hok] at h) fun _ =>
      .bind tidily_load fun _ => .pure _) fun _ => .pure _) fun _ => .pure _

theorem tidily_presignedResultUrl {task : AsyncTask} {t : ResolvedTemplate} :
    Tidily C κ q (presignedResultUrl C task t) := by
  unfold presignedResultUrl
  split
  · exact .ite (fun _ => tidily_ask rfl) fun _ => .pure _
  · exact .pure _

theorem tidily_snapshotStale {task : AsyncTask} {minRefresh : ℚ} :
    Tidily C κ q (snapshotStale task minRefresh) := by
  unfold snapshotStale
  split
  · exact .bind tidily_now fun _ => .pure _
  · exact .pure _

theorem tidily_handleQuery {auth : AuthContext} {t : ResolvedTemplate} {identifier : String}
    (hκ : κ.sweeps = false) : Tidily C κ Any (handleQuery C auth t identifier) := by
  have shown : ∀ task : AsyncTask, Tidily C κ Any (do
      let resultUrl ← presignedResultUrl C task t
      let native ← raiseIn (buildNativeQueryResponse C task t resultUrl)
      pure ({ status := 200, body := some native
              headers := responseHeaders task
                ((C.strategyFor auth.channel t).minRefreshInterval.getD 3) } : HttpAnswer)) :=
    fun task => .bind tidily_presignedResultUrl fun _ => .bind (tidily_raiseIn _) fun _ => .pure _
  refine .bind tidily_findTask fun row => ?_
  cases row with
  | none => exact .raise _
  | some task =>
      refine .bind_ofExcept fun _ _ => .ite (fun _ => shown task) fun hq =>
        .bind tidily_snapshotStale fun _ => .ite (fun _ => ?_) fun _ => shown task
      have hs : task.status ∉ businessTerminal := fun h =>
        hq (.inl (by simpa [isBusinessTerminal]))
      exact .bind (tidily_refresh hκ hs) shown

theorem tidily_handleCancel {auth : AuthContext} {t : ResolvedTemplate} {identifier : String} :
    Tidily C κ Any (handleCancel C auth t identifier) := by
  refine .bind tidily_findTask fun row => ?_
  cases row with
  | none => exact .raise _
  | some task =>
      refine .bind_ofExcept fun _ _ => .ite (fun _ => .pure _) fun _ =>
        .bind (tidily_apply rfl fun _ => trivial) fun _ => .ite (fun _ => ?_) fun _ => .raise _
      exact .bind tidily_enqueue fun _ => .bind (tidily_audit (by simp)) fun _ =>
        .bind tidily_load fun _ => .pure _

/-! ### The callback -/

/-- The callback ended the task it loaded, and nothing failed since. -/
structure Due (κ : Work) (task : AsyncTask) (b : Book) : Prop where
  kind : b.kind = some κ
  loaded : b.loaded = some task
  ending : ∃ s, b.ending = .due s

theorem Due.error {task : AsyncTask} {b : Book} (h : Due κ task b) :
    AtRest κ Any { b with ending := b.ending.hinder } := by
  obtain ⟨s, hs⟩ := h.ending
  exact ⟨h.kind, by simp [hs, Ending.hinder, Ending.settled], trivial⟩

theorem wp_callbackAdvance {task : AsyncTask} {mapped : TaskStatus} {snapshot : Json}
    {rawStatus : Option String} {b : Book} (hκ : κ.sweeps = false)
    (hb : AtRest κ (· = some task) b) :
    wp (bookkeeping C) (callbackAdvance task mapped snapshot rawStatus) (fun r b' =>
      AtRest κ Any b' ∨ r = .ok true ∧ Due κ task b') b := by
  have ends : ∀ {dst : TaskStatus} {values : List Assign} {b : Book},
      AtRest κ (· = some task) b → isBusinessTerminal dst = true → CarefulAdvance dst values →
      (∀ loaded, presumes C loaded (.advance dst (some [task.status]) values) = false) →
      wp (bookkeeping C) (applyOp (.advance dst (some [task.status]) values)) (fun r b' =>
        AtRest κ Any b' ∨ r = .ok true ∧ Due κ task b') b := by
    intro dst values b hb hd hc hp
    refine wp_perform.mpr ⟨hc, fun r => ?_⟩
    rcases r with x | (- | -)
    · exact .inl hb.error.any
    · exact .inl (by simpa [bookkeeping, Book.next, hp] using hb.any)
    · refine .inr ⟨rfl, ?_⟩
      have hn : (bookkeeping C).next b (.apply (.advance dst (some [task.status]) values) none)
          (.ok true) = { b with ending := .due dst } := by
        simp [bookkeeping, Book.next, hd, hb.finalizes hκ]
      rw [hn]
      exact ⟨hb.kind, hb.loaded, dst, rfl⟩
  refine wp_bind.mpr (wp_mono (fun r b' hr => ?_) (tidily_now b hb))
  rcases r with x | now
  · exact .inl hr.any
  · dsimp only
    split
    · refine ends hr rfl (fun _ _ => ?_) fun _ => rfl
      simp [advanceValues, setDefault, internalTerminal, Assign.isFinishedAt, Assign.apply]
    · refine ends hr rfl (fun _ _ => ?_) fun _ => rfl
      simp [advanceValues, setDefault, internalTerminal, Assign.isFinishedAt, Assign.isNextPollAt,
        Assign.apply]
    · refine wp_mono (fun _ b'' h => .inl h.any) (tidily_apply rfl (fun _ => ?_) b' hr)
      intro _ _
      simp [advanceValues, internalTerminal, Assign.apply, Assign.isNextPollAt]

/-- The task the callback ended is finalized; its template is the one that was found before. -/
theorem wp_finalizeTask {task : AsyncTask} {t : ResolvedTemplate} {b : Book} (hb : Due κ task b)
    (ht : templateOf C task = some t) :
    wp (bookkeeping C) (finalizeTask C) (fun _ b' => AtRest κ Any b') b := by
  obtain ⟨s, hs⟩ := hb.ending
  refine wp_bind.mpr (wp_perform.mpr ⟨trivial, fun r => ?_⟩)
  rcases r with x | (- | row)
  · exact hb.error
  · exact ⟨hb.kind, by simp [bookkeeping, Book.next, Book.shown, hs, Ending.settled], trivial⟩
  · have hn : (bookkeeping C).next b .load (.ok (some row)) =
        { b with loaded := some row
                 ending := if isBusinessTerminal row.status && b.sameTemplate row then .due s
                   else .misled } := by
      simp [bookkeeping, Book.next, Book.shown, hs]
    rw [hn]
    have drop : wp (bookkeeping C) (ask .dropCredential) (fun _ b' => AtRest κ Any b')
        { b with loaded := some row, ending := .due s } := by
      refine wp_perform.mpr ⟨.inl ⟨s, .inl rfl⟩, fun r => ?_⟩
      rcases r with x | ⟨⟨⟩⟩ <;> exact ⟨hb.kind, rfl, trivial⟩
    by_cases hsame : (isBusinessTerminal row.status && b.sameTemplate row) = true
    · rw [if_pos hsame]
      obtain ⟨hterm, hrow⟩ := Bool.and_eq_true_iff.mp hsame
      have href : row.templateRef = task.templateRef := by
        simpa [Book.sameTemplate, hb.loaded] using hrow
      have hrequire : C.require row.templateAlias row.templateVersion = .ok t := by
        rw [Container.require, show C.registry row.templateAlias row.templateVersion = some t from
          (templateOf_congr href).trans ht]
      refine wp_ite.mpr ⟨fun _ => ?_, fun hn => absurd hterm hn⟩
      refine wp_bind.mpr (wp_bind.mpr (wp_ofExcept.mpr ?_))
      rw [hrequire]
      refine wp_ite.mpr ⟨fun _ => wp_bind.mpr (wp_perform.mpr ⟨trivial, fun r => ?_⟩), fun _ => drop⟩
      rcases r with x | -
      · exact ⟨hb.kind, rfl, trivial⟩
      · exact drop
    · rw [if_neg hsame]
      have hloaded : AtRest κ (· = some row) { b with loaded := some row, ending := .misled } :=
        ⟨hb.kind, rfl, rfl⟩
      refine wp_ite.mpr ⟨fun hterm => ?_, fun _ => hloaded.any⟩
      exact wp_mono (fun _ _ h => h.any) (tidily_finalizeLoaded hterm _ hloaded)

theorem wp_applyCallbackTo {task : AsyncTask} {t : ResolvedTemplate} {event : CallbackEvent}
    {b : Book} (hκ : κ.sweeps = false) (hs : task.status ∉ businessTerminal)
    (ht : templateOf C task = some t) (hb : AtRest κ (· = some task) b) :
    wp (bookkeeping C) (applyCallbackTo C task t event) (fun _ b' => AtRest κ Any b') b := by
  have hterm : ∀ refs detail, (callbackAudit task.taskId refs detail).eventType ≠ .terminal := by
    simp [callbackAudit]
  unfold applyCallbackTo
  cases t.mapsStatus (event.rawStatus.getD "") with
  | none =>
      have hrecord : Tidily C κ Any (do
          let _ ← applyOp (.recordPollResult (some (callbackSnapshot event.payload))
            event.rawStatus task.nextPollAt [task.status])
          pure ()) := .bind (tidily_apply rfl fun _ => by simpa [Careful] using hs) fun _ => .pure _
      exact hrecord b hb.any
  | some mapped =>
      refine wp_ite.mpr ⟨fun _ => ?_, fun _ => ?_⟩
      · have hagain : Tidily C κ Any (do
            let _ ← noteAttribute [("pending_terminal_from_callback",
              .obj [("raw_status", jsonOfOption event.rawStatus), ("mapped", .str mapped.value)])]
            let now ← now_
            let _ ← applyOp (.scheduleNextPoll now)
            audit (callbackAudit task.taskId
              [("applied", .bool false), ("reason", .str "arbitration_required"),
                ("raw_status", jsonOfOption event.rawStatus)]
              "兜底源（回调）判出终态：按 §14 先触发主源复查，不直接落库")) :=
          .bind (tidily_noteAttribute rfl) fun _ => .bind tidily_now fun _ =>
            .bind (tidily_apply rfl fun _ => trivial) fun _ => tidily_audit (hterm _ _)
        exact hagain b hb.any
      · refine wp_bind.mpr (wp_mono (fun r b' h => ?_) (wp_callbackAdvance hκ hb))
        rcases h with h | ⟨rfl, h⟩
        · have hrest : Tidily C κ Any (do
              audit (callbackAudit task.taskId
                [("applied", .bool true), ("mapped", .str mapped.value),
                  ("raw_status", jsonOfOption event.rawStatus)] "回调驱动状态迁移")
              finalizeTask C) := .bind (tidily_audit (hterm _ _)) fun _ => tidily_finalizeTask
          rcases r with x | (- | -)
          · exact h
          · exact h
          · exact hrest b' h
        · refine wp_bind.mpr (wp_perform.mpr ⟨fun he => absurd he (hterm _ _), fun r => ?_⟩)
          rcases r with x | -
          · exact h.error
          · exact wp_finalizeTask h ht

theorem wp_applyCallback {taskId : String} {event : CallbackEvent} {b : Book}
    (hκ : κ.sweeps = false) (hb : AtRest κ Any b) :
    wp (bookkeeping C) (applyCallback C taskId event) (fun _ b' => AtRest κ Any b') b := by
  have late : ∀ refs detail, Tidily C κ Any (audit (callbackAudit taskId refs detail)) :=
    fun _ _ => tidily_audit (by simp [callbackAudit])
  refine wp_bind.mpr (wp_perform.mpr ⟨trivial, fun r => ?_⟩)
  rcases r with x | (- | task)
  · exact hb.error
  · exact late _ _ _ (hb.see none)
  · have hloaded : AtRest κ (· = some task)
        { b with loaded := some task, ending := b.shown (some task) } :=
      ⟨hb.kind, (hb.see _).ending, rfl⟩
    refine wp_ite.mpr ⟨fun _ => late _ _ _ hloaded.any, fun hq => ?_⟩
    have hs : task.status ∉ businessTerminal := fun h => hq (by simpa [isBusinessTerminal])
    split
    · exact hloaded.any
    · next t ht => exact wp_applyCallbackTo hκ hs ht hloaded

theorem wp_receiveCallback {payload : Json} {b : Book} (hκ : κ.sweeps = false)
    (hb : AtRest κ Any b) :
    wp (bookkeeping C) (receiveCallback C payload) (fun _ b' => AtRest κ Any b') b := by
  refine wp_bind.mpr (wp_mono (fun r b₁ h₁ => ?_) (tidily_load b hb))
  rcases r with x | (- | task)
  · exact h₁
  · exact h₁
  · have recorded : ∀ rawStatus : Option String, wp (bookkeeping C) (do
        let fresh : Bool ← ask (.insertCallbackEvent rawStatus payload)
        if fresh then applyCallback C task.taskId ⟨payload, rawStatus⟩ else pure ())
        (fun _ b' => AtRest κ Any b') b₁ := fun rawStatus => by
      refine wp_bind.mpr (wp_mono (fun r b₂ h₂ => ?_) (tidily_ask rfl b₁ h₁))
      rcases r with x | fresh
      · exact h₂
      · exact wp_ite.mpr ⟨fun _ => wp_applyCallback hκ h₂, fun _ => h₂⟩
    dsimp only
    cases C.registry task.templateAlias task.templateVersion with
    | none => exact recorded none
    | some t =>
        refine wp_bind.mpr (wp_ofExcept.mpr ?_)
        generalize ExpressionError.lift _ = extracted
        cases extracted with
        | error x => exact h₁
        | ok value => exact recorded _

/-! ### The ticks and the operator -/

theorem tidily_selected {select : Time → AsyncTask → Bool} {act : AsyncTask → Handler Unit}
    (hact : ∀ now task, select now task = true → Tidily C κ Any (act task)) :
    Tidily C κ Any (selected select act) :=
  .bind tidily_now fun now => .bind tidily_load fun row => by
    cases row with
    | none => exact .pure _
    | some task => exact .ite (fun h => hact now task h) fun _ => .pure _

theorem tidily_scanAcceptedStalls {stallSeconds : Seconds} :
    Tidily C κ Any (scanAcceptedStalls stallSeconds) := by
  refine tidily_selected fun now task _ => ?_
  split
  · exact tidily_enqueue
  · exact .bind tidily_now fun _ => .bind (tidily_apply rfl fun _ => careful_doubt) fun _ => .pure _

theorem tidily_scanDeadlines {message : String} (hκ : κ.sweeps = true) :
    Tidily C κ Any (scanDeadlines message) := by
  refine tidily_selected fun now task _ => .bind tidily_now fun _ =>
    .bind (tidily_sweep hκ (fun _ _ => ?_) fun _ => rfl) fun _ => .pure _
  simp [advanceValues, setDefault, internalTerminal, Assign.isFinishedAt, Assign.isNextPollAt,
    Assign.apply]

theorem tidily_boundUnknowns {maxLifetime : Seconds} {overLimit : Bool} (hκ : κ.sweeps = true) :
    Tidily C κ Any (boundUnknowns maxLifetime overLimit) := by
  refine tidily_selected fun now task _ =>
    .bind (tidily_sweep hκ (fun _ _ => ?_) fun _ => rfl) fun _ => .pure _
  simp [advanceValues, setDefault, internalTerminal, Assign.isFinishedAt, Assign.isNextPollAt,
    Assign.apply]

theorem tidily_reconcileOrphans {stallSeconds : Seconds} :
    Tidily C κ Any (reconcileOrphans stallSeconds) :=
  tidily_selected fun _ _ _ => .bind tidily_now fun _ =>
    .bind (tidily_apply rfl fun _ => careful_doubt) fun _ => .pure _

theorem tidily_dispatchDue {leaseSeconds : Seconds} :
    Tidily C κ Any (dispatchDue C leaseSeconds) := by
  refine tidily_selected fun now task h => ?_
  split
  · exact .pure _
  · refine .bind (tidily_apply rfl fun _ => ?_) fun _ => .pure _
    simp only [dueForDispatch, Bool.and_eq_true, Bool.or_eq_true, decide_eq_true_eq] at h
    simp only [Careful, List.mem_singleton, forall_eq]
    intro ht
    rcases h.1 with hd | ⟨ha, -⟩
    · revert ht hd
      cases task.status <;> decide
    · rw [ha] at ht
      exact absurd ht (by decide)

theorem tidily_closeTask {reason : String} (hκ : κ.sweeps = true) :
    Tidily C κ Any (closeTask reason) :=
  .bind tidily_load fun row => by
    cases row with
    | none => exact .raise _
    | some task =>
        refine .bind tidily_now fun _ => .bind (tidily_sweep hκ (fun _ _ => ?_) fun _ => ?_) fun _ =>
          .ite (fun _ => tidily_audit (by simp [governance])) fun _ => .raise _
        · simp [advanceValues, setDefault, internalTerminal, Assign.isFinishedAt,
            Assign.isNextPollAt, Assign.apply]
        · simp [presumes, submitSources]

theorem tidily_answering {route : Handler HttpAnswer} (h : Tidily C κ Any route) :
    Tidily C κ Any (answering route) :=
  .bind h fun _ => tidily_ask rfl

/-- **Every handler keeps its books**, and ends, with an exception too, only where nothing is due. -/
theorem settles_books {t : ResolvedTemplate} (κ : Work) :
    Settles (bookkeeping C) (κ.body C t) ((bookkeeping C).start κ) := by
  have hb : AtRest κ Any { kind := some κ } := ⟨rfl, rfl, trivial⟩
  suffices h : wp (bookkeeping C) (κ.body C t) (fun _ b' => AtRest κ Any b') { kind := some κ }
    from wp_mono (fun _ _ hb' => hb'.ending) h
  cases κ with
  | submitUpstream => exact tidily_submitUpstream rfl _ hb
  | inlineSubmit req => exact tidily_answering (tidily_inlineSubmit rfl rfl) _ hb
  | pollUpstream => exact tidily_pollUpstream rfl _ hb
  | compensateOrphan => exact tidily_compensateOrphan rfl _ hb
  | cancelUpstream => exact tidily_cancelUpstream rfl _ hb
  | finalizeTask => exact tidily_finalizeTask _ hb
  | storeResult attempt => exact tidily_storeResult _ hb
  | query auth identifier => exact tidily_answering (tidily_handleQuery rfl) _ hb
  | cancelRequest auth identifier => exact tidily_answering tidily_handleCancel _ hb
  | callback payload => exact wp_receiveCallback rfl hb
  | scanAcceptedStalls stallSeconds => exact tidily_scanAcceptedStalls _ hb
  | scanDeadlines message => exact tidily_scanDeadlines rfl _ hb
  | boundUnknowns maxLifetime overLimit => exact tidily_boundUnknowns rfl _ hb
  | reconcileOrphans stallSeconds => exact tidily_reconcileOrphans _ hb
  | dispatchPendingTransfers =>
      exact tidily_selected (fun _ _ _ => tidily_ask rfl) _ hb
  | dispatchDue leaseSeconds => exact tidily_dispatchDue _ hb
  | closeTask reason => exact tidily_closeTask rfl _ hb

end AsyncGateway
