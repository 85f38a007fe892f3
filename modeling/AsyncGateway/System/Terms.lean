import AsyncGateway.System.Conduct
import AsyncGateway.System.Routine

/-!
# System — the terms of a wait

A third protocol of the handlers: on what terms a submission intent is given back (`terms`).  A
handler whose create call was answered with 429 sets the task due as long after its last reading of
the clock as the answer asks for.  The deadline of a task moves with a release only, from the
deadline of the row loaded last and by what its extension has room for.

Most programs have nothing to do with either (`Aside`), since they are routine.  The submissions are
followed step by step (`Minds`).
-/

namespace AsyncGateway

open TaskStatus TaskRuntime
open Interleave

/-- What is known of a handler: the row it loaded last, the answer to its create call, and its
readings of the clock since, the newest first. -/
structure Standing where
  loaded : Option AsyncTask := none
  answer : Option HttpResponse := none
  readings : List Time := []

/-- The delay an answer 429 asks for, at the time it is read. -/
def askedDelay (C : Container) (response : HttpResponse) (at_ : Time) : PyFloat :=
  extractRetryAfter C.toFloat C.parsedate at_ response.retryAfter (.fin 1)

namespace Standing

variable (C : Container) (m : Standing)

/-- An intent given back after an answer 429 is due as long after the last reading of the clock as
the answer asked for at the reading before; where it asks for none, the handler sets the delay. -/
def Waits (next : Time) : Prop :=
  ∀ response, m.answer = some response → response.statusCode = 429 →
    ∃ n₁ n₂ base, m.readings = [n₂, n₁] ∧
      later n₂ ((askedDelay C response n₁).orElse base) = .ok next

/-- A new deadline is the one of the row loaded last, and the extension it has room for. -/
def Extends (deadline : Option Time) : Prop :=
  ∀ d, deadline = some d → ∃ task from_ want, m.loaded = some task ∧ task.deadlineAt = some from_ ∧
    0 < deadlineExtension C task want C.deadlineExtensionMaxSeconds ∧
      d = from_ + deadlineExtension C task want C.deadlineExtensionMaxSeconds

/-- The operations a handler may ask for. -/
def Allows : Op → Prop
  | .apply (.releaseSubmitIntent _ next _ _ _ _ _ deadline) _ =>
      m.Waits C next ∧ m.Extends C deadline
  | .apply (.advance _ _ values) _ => values.any Assign.isDeadlineAt = false
  | _ => True

/-- After an operation was answered. -/
def next : (o : Op) → Except Exn o.Ans → Standing
  | .load, .ok row => { m with loaded := row }
  | .findTask _ _, .ok row => { m with loaded := row }
  | .now, .ok n => { m with readings := n :: m.readings }
  | .recv .create, .ok (.ok response) => { m with answer := some response, readings := [] }
  | _, _ => m

end Standing

/-- **The terms on which an intent is given back.** -/
def terms (C : Container) : Protocol effects Exn Work where
  State := Standing
  start _ := {}
  idle := {}
  gone m := m
  allows := Standing.Allows C
  next := Standing.next
  done _ := True
  done_idle := trivial
  done_gone _ := trivial

/-- Where the terms have handler `u` after the log. -/
abbrev standing (C : Container) (t : ResolvedTemplate) (log : Log) (u : ℕ) : Standing :=
  (terms C).after (M := gateway C t) log u

/-! ### Programs that have nothing to do with a wait -/

/-- `p` neither releases an intent nor sets a deadline, whatever it is answered. -/
abbrev Aside {α : Type} (p : Handler α) : Prop :=
  Prog.Avoids (S := effects) (fun o => Op.ofWait o = true) p

section Aside

variable {C : Container} {task : AsyncTask}

theorem aside_of_routine {α : Type} {p : Handler α} (h : Routine p) : Aside p :=
  fun o ho hw => h o ho (by simp [Op.routine, hw])

theorem aside_ask {o : Op} (h : o.ofWait = false) : Aside (ask o) := .perform (by simp [h])

theorem aside_apply {op : DaoOp} (h : (Op.apply op none).ofWait = false) : Aside (applyOp op) :=
  aside_ask h

theorem aside_transferFailed {detail : String} {refs : Json.Fields} {note : String} :
    Aside (transferFailed task detail refs note) :=
  .bind (aside_apply rfl) fun _ => aside_of_routine routine_audit

theorem aside_fetchResult {url : String} : Aside (fetchResult C url) := by
  refine .bind (aside_ask rfl) fun violation => ?_
  cases violation with
  | some violation => exact .pure _
  | none =>
      refine .bind (aside_ask rfl) fun _ => .bind (aside_ask rfl) fun answer => ?_
      cases answer with
      | error exc => exact .pure _
      | ok response => exact .ite (.pure _) (.ite (.pure _) (.pure _))

theorem aside_transfer {attempt : ℤ} {url : String} : Aside (transfer C task attempt url) := by
  refine .bind (aside_ask rfl) fun _ => .bind aside_fetchResult fun fetched => ?_
  split
  · exact .bind (aside_ask rfl) fun _ => .bind (aside_apply rfl) fun _ =>
      .ite (aside_of_routine routine_audit) (.pure _)
  · exact .ite (.bind (aside_of_routine routine_backoff) fun _ =>
      .bind (aside_of_routine routine_nowPlus) fun _ => .bind (aside_apply rfl) fun _ => .pure _)
        aside_transferFailed

theorem aside_storeResult {attempt : ℤ} : Aside (storeResult C attempt) := by
  refine .bind (aside_ask rfl) fun row => ?_
  cases row with
  | none => exact .pure _
  | some task =>
      refine .ite (.bind (aside_of_routine routine_template) fun _ =>
        .ite (.pure _) (.bind (.ofExcept _) fun found => ?_)) (.pure _)
      split
      · exact aside_transfer
      · exact aside_transferFailed

end Aside

/-! ### Programs that keep to the terms -/

/-- `p` keeps to the terms from `m` on. -/
abbrev Minds {α : Type} (C : Container) (p : Handler α) (m : Standing) : Prop :=
  wp (terms C) p (fun _ _ => True) m

section Minds

variable {C : Container} {m : Standing} {α β : Type}

theorem allows_of_aside {o : Op} (h : ¬ o.ofWait = true) : m.Allows C o := by
  cases o with
  | apply op also =>
      cases op with
      | releaseSubmitIntent => exact absurd rfl h
      | advance dst expected values => exact Bool.eq_false_iff.mpr h
      | _ => trivial
  | _ => trivial

theorem minds_of_aside {p : Handler α} (h : Aside p) : Minds C p m := by
  induction p generalizing m with
  | pure a => trivial
  | raise x => trivial
  | op o k ih =>
      exact ⟨allows_of_aside (h o (.inl rfl)), fun r => ih r fun o' ho' => h o' (.inr ⟨r, ho'⟩)⟩

theorem minds_of_routine {p : Handler α} (h : Routine p) : Minds C p m :=
  minds_of_aside (aside_of_routine h)

/-- What comes after has nothing to do with the wait. -/
theorem minds_bind {p : Handler α} {f : α → Handler β} (hp : Minds C p m)
    (hf : ∀ a, Routine (f a)) : Minds C (p.bind f) m :=
  wp_bind.mpr <| wp_mono (fun r _ _ => by
    cases r with
    | ok a => exact minds_of_routine (hf a)
    | error x => trivial) hp

theorem minds_tryFinally {p : Handler α} {q : Handler Unit} (hp : Minds C p m) (hq : Routine q) :
    Minds C (p.tryFinally q) m :=
  wp_tryFinally.mpr <| wp_mono (fun _ _ _ =>
    wp_mono (fun s _ _ => by cases s <;> trivial) (minds_of_routine hq)) hp

theorem minds_ofExcept {r : Except Exn α} {f : α → Handler β}
    (hf : ∀ a, r = .ok a → Minds C (f a) m) : Minds C ((Prog.ofExcept r).bind f) m := by
  cases r with
  | ok a => exact hf a rfl
  | error x => trivial

/-- An operation, and what follows on its answer. -/
theorem minds_ask {o : Op} {f : o.Ans → Handler β} (ho : m.Allows C o)
    (hf : ∀ a, Minds C (f a) (m.next o (.ok a))) : Minds C ((ask o).bind f) m := by
  refine wp_bind.mpr (wp_perform.mpr ⟨ho, fun r => ?_⟩)
  cases r with
  | ok a => exact hf a
  | error x => trivial

/-- The same, inside what goes before `f`. -/
theorem minds_ask_bind {o : Op} {g : o.Ans → Handler α} {f : α → Handler β} (ho : m.Allows C o)
    (hg : ∀ a, Minds C ((g a).bind f) (m.next o (.ok a))) :
    Minds C (((ask o).bind g).bind f) m := by
  rw [Prog.bind_assoc]
  exact minds_ask ho hg

theorem minds_template {task : AsyncTask} {f : ResolvedTemplate × Strategy → Handler β}
    (hf : ∀ found, Minds C (f found) m) : Minds C ((template C task).bind f) m := by
  show Minds C (((Prog.ofExcept (C.require task.templateAlias task.templateVersion)).bind
    fun t' => .pure (t', C.strategyFor task.channel t')).bind f) m
  cases C.require task.templateAlias task.templateVersion with
  | ok t' => exact hf _
  | error x => trivial

theorem minds_pastDeadline {task : AsyncTask} {f : Bool → Handler β}
    (hf : ∀ overdue m', m'.loaded = m.loaded → m'.answer = m.answer → Minds C (f overdue) m') :
    Minds C ((pastDeadline task).bind f) m := by
  unfold pastDeadline
  split
  · exact hf _ _ rfl rfl
  · exact minds_ask_bind trivial fun _ => hf _ _ rfl rfl

theorem minds_backoff {attempt : ℤ} {base cap : Seconds} {f : Seconds → Handler β}
    (hf : ∀ delay, Minds C (f delay) m) : Minds C ((backoff attempt base cap).bind f) m :=
  minds_ask_bind trivial fun _ => minds_ofExcept fun delay _ => hf delay

/-! ### The submissions -/

variable {task : AsyncTask} {t : ResolvedTemplate} {strategy : Strategy}
  {result : UpstreamCallResult}

/-- The result is what the client made of the last answer, or there was none. -/
def Standing.Gave (C : Container) (m : Standing) (result : UpstreamCallResult) : Prop :=
  m.answer = none ∨ ∃ response n secrets, m.answer = some response ∧ m.readings = [n] ∧
    result = UpstreamClient.ofResponse C secrets .submit n response

theorem minds_createCall {request : RenderedRequest} {bearer : Option String}
    {f : UpstreamCallResult → Handler β} (hn : m.answer = none)
    (hf : ∀ result m', m'.loaded = m.loaded → m'.Gave C result → Minds C (f result) m') :
    Minds C ((UpstreamClient.call C .create request .submit bearer).bind f) m := by
  refine minds_ask_bind trivial fun violation => ?_
  cases violation with
  | some violation => exact hf _ _ rfl (.inl hn)
  | none =>
      refine minds_ask_bind trivial fun _ => minds_ask_bind trivial fun answer => ?_
      cases answer with
      | error exc => exact hf _ _ rfl (.inl hn)
      | ok response =>
          exact minds_ask_bind trivial fun n => hf _ _ rfl (.inr ⟨response, n, _, rfl, rfl, rfl⟩)

/-- A release after the handler has read the clock once more. -/
theorem minds_release {delay : PyFloat} {code : ErrorCode} {message : Option String}
    {decrement : Bool} (hl : m.loaded = some task)
    (hw : ∀ n next, later n delay = .ok next →
      ({ m with readings := n :: m.readings } : Standing).Waits C next) :
    Minds C (releaseForUpstreamWait C task submitSources delay code message decrement) m := by
  refine minds_ask_bind trivial fun n => minds_ofExcept fun next hnext => ?_
  refine minds_ask ⟨hw n next hnext, fun d hd => ?_⟩ fun (released : Bool) =>
    minds_of_routine ?_
  · -- the new deadline is set where the loaded row has one
    split at hd
    · rename_i from_ hfrom
      split at hd
      · rename_i hpos
        exact ⟨task, from_, _, hl, hfrom, hpos, (Option.some.inj hd).symm⟩
      · cases hd
    · cases hd
  · exact .ite (.bind routine_noteAttribute fun _ => .pure _) (.pure _)

/-- The outcome of a create call, with the row the handler loaded last. -/
theorem minds_handleSubmitResult (hl : m.loaded = some task) (hg : m.Gave C result) :
    Minds C (handleSubmitResult C task t strategy result) m := by
  refine wp_ite.mpr ⟨fun _ => minds_of_routine routine_submissionDead, fun _ => wp_ite.mpr
    ⟨fun _ => minds_of_routine routine_handleCreated, fun _ => ?_⟩⟩
  cases hc : result.classification with
  | none => trivial
  | some c =>
      -- an answer 429 is classified as rate limited, and nothing else is
      have limited : ∀ response, m.answer = some response → response.statusCode = 429 →
          c.errorClass = .rateLimited ∧ ∃ n, m.readings = [n] ∧
            result.retryAfter = some (askedDelay C response n) := by
        intro response ha h429
        obtain hn | ⟨response', n, secrets, ha', hr, rfl⟩ := hg
        · rw [hn] at ha
          cases ha
        · rw [ha'] at ha
          cases ha
          have hok : ¬ (UpstreamResponse.ok ⟨response.statusCode, response.retryAfter,
              response.json.map (C.scrubPayload secrets), C.scrubText secrets response.text,
              response.json⟩ = true) := by simp [UpstreamResponse.ok, h429]
          simp only [UpstreamClient.ofResponse, if_neg hok, Option.some.injEq] at hc ⊢
          refine ⟨?_, n, hr, if_pos h429⟩
          rw [← hc, h429]
          rfl
      have unlimited : c.errorClass ≠ .rateLimited → ∀ (readings : List Time) next,
          ({ m with readings := readings } : Standing).Waits C next :=
        fun hne _ _ response ha h429 => absurd (limited response ha h429).1 hne
      refine wp_ite.mpr ⟨fun _ => ?_, fun hne => wp_ite.mpr ⟨fun _ => ?_, fun _ => wp_ite.mpr
        ⟨fun _ => minds_of_routine routine_submissionDead, fun _ => wp_ite.mpr ⟨fun _ => ?_,
          fun _ => wp_ite.mpr ⟨fun _ => minds_of_routine routine_submissionDead, fun _ => ?_⟩⟩⟩⟩⟩
      · refine minds_ask trivial fun base => minds_ask trivial fun _ =>
          minds_bind (minds_release hl fun n next hnext response ha h429 => ?_) fun _ => .pure _
        obtain ⟨-, n₁, hr, hasked⟩ := limited response ha h429
        rw [hasked] at hnext
        exact ⟨n₁, n, _, by rw [← hr]; rfl, hnext⟩
      · refine minds_ask trivial fun _ => minds_backoff fun delay =>
          minds_bind (minds_release hl fun n next _ => unlimited hne _ next) fun _ => ?_
        exact .bind routine_noteAttribute fun _ => routine_audit
      · exact minds_of_routine (.bind (routine_apply rfl) fun _ => routine_enqueue)
      · refine minds_backoff fun delay => minds_ask_bind trivial fun n => minds_ofExcept
          fun next _ => minds_ask ⟨unlimited hne _ next, fun d hd => ?_⟩ fun _ => trivial
        cases hd

theorem minds_loadCreateBody {f : Option Json.Fields → Handler β}
    (hf : ∀ found, Minds C (f found) m) : Minds C ((loadCreateBody task).bind f) m := by
  unfold loadCreateBody
  split
  · exact hf _
  · refine minds_ask_bind trivial fun found => ?_
    split <;> exact hf _

theorem minds_submitWithSlot {bearer : String} (hl : m.loaded = some task) (hn : m.answer = none) :
    Minds C (submitWithSlot C task t strategy bearer) m := by
  refine minds_ask trivial fun (hit : Bool) => wp_ite.mpr
    ⟨fun _ => minds_loadCreateBody fun found => ?_, fun _ => trivial⟩
  cases found with
  | none => exact minds_of_routine (.bind routine_now fun _ => routine_advanceAndFinalize rfl)
  | some body =>
      exact minds_ofExcept fun request _ => minds_createCall hn fun result m' hl' hg =>
        minds_handleSubmitResult (hl'.trans hl) hg

theorem minds_submitUpstream (hn : m.answer = none) : Minds C (submitUpstream C) m := by
  refine minds_ask trivial fun row => ?_
  cases row with
  | none => trivial
  | some task =>
      refine wp_ite.mpr ⟨fun _ => minds_template fun found => minds_pastDeadline
        fun overdue m' hl' hn' => ?_, fun _ => trivial⟩
      refine wp_ite.mpr ⟨fun _ => minds_of_routine (routine_advanceAndFinalize rfl), fun _ =>
        wp_ite.mpr ⟨fun _ => minds_of_routine (routine_advanceAndFinalize rfl), fun _ =>
          minds_ask trivial fun bearer => ?_⟩⟩
      split
      · exact minds_of_routine (.bind routine_now fun _ => .bind (routine_apply rfl) fun _ =>
          routine_finalizeTerminal)
      · exact minds_ask trivial fun decision => wp_ite.mpr ⟨fun _ =>
          minds_tryFinally (minds_submitWithSlot hl' (hn'.trans hn)) (routine_ask rfl),
            fun _ => minds_of_routine routine_enqueueSelfLater⟩

theorem minds_inlineCall {req : AcceptedRequest} (hn : m.answer = none) :
    Minds C (inlineCall C req t) m := by
  refine minds_ask trivial fun row => minds_ofExcept fun request _ => minds_createCall hn
    fun result m' _ hg => minds_ask_bind trivial fun reloaded => ?_
  cases reloaded with
  | none => trivial
  | some task =>
      show Minds C ((handleSubmitResult C task t (C.strategyFor req.channel t) result).bind
        fun _ => .pure result) { m' with loaded := some task }
      exact minds_bind (minds_handleSubmitResult rfl hg) fun _ => .pure _

theorem minds_inlineSubmit {req : AcceptedRequest} (hn : m.answer = none) :
    Minds C (inlineSubmit C req t) m := by
  refine minds_ask trivial fun (hit : Bool) => wp_ite.mpr
    ⟨fun _ => minds_ask trivial fun decision => wp_ite.mpr ⟨fun _ => ?_, fun _ => ?_⟩, fun _ => ?_⟩
  · exact minds_bind (minds_tryFinally (minds_inlineCall hn) (routine_ask rfl)) fun _ =>
      routine_inlineAnswer
  · -- no slot, and no call yet: nothing is asked of the wait
    refine minds_ask trivial fun now => minds_ask ⟨fun response ha => ?_, fun d hd => ?_⟩ fun _ =>
      minds_of_routine (.bind routine_enqueue fun _ => .raise _)
    · rw [show m.answer = some response from ha] at hn
      cases hn
    · cases hd
  · exact minds_of_routine (.bind routine_enqueue fun _ => .pure _)

/-- **Every handler keeps to the terms.** -/
theorem keeps_terms (κ : Work) : Follows (terms C) (κ.body C t) ((terms C).start κ) := by
  suffices h : Minds C (κ.body C t) {} from wp_mono (fun r _ _ => by cases r <;> trivial) h
  cases κ with
  | submitUpstream => exact minds_submitUpstream rfl
  | inlineSubmit req => exact minds_bind (minds_inlineSubmit rfl) fun _ => routine_ask rfl
  | storeResult attempt => exact minds_of_aside aside_storeResult
  | _ => exact minds_of_routine (routine_body rfl)

end Minds

end AsyncGateway
