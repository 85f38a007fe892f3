import AsyncGateway.Db.Trajectory
import AsyncGateway.System.Writes

/-!
# System — the handlers and the whitelist

The writes that name the states they expect, and the whitelist of transitions.  A write whose
sources all have the edge raises no `TransitionError` (`DaoOp.lawful_iff`).  A handler that expects
the state it loaded writes what its answers call for, and some answers call for a state the loaded
one has no edge to (`noWay`).  In a run without such an answer the five handlers ask for lawful
writes only (`whitelist_kept`).
-/

namespace AsyncGateway

open TaskStatus TaskRuntime
open Interleave

/-! ### Lawful writes -/

/-- The write raises no `TransitionError`: every state it expects has the edge. -/
def DaoOp.lawful : DaoOp → Bool
  | .advance dst (some expected) _ => decide (∀ src ∈ expected, Edge src dst)
  | .enterUnknown _ _ expected => decide (∀ src ∈ unknownSources expected, Edge src submitUnknown)
  | .relocateCompensate _ target _ _ _ _ => decide (Edge submitUnknown target)
  | _ => true

theorem advance_lawful {now : Time} {row : AsyncTask} {dst : TaskStatus}
    {sources : List TaskStatus} {values : List Assign} :
    (∀ src ∈ sources, Edge src dst) ↔ ∀ e, advance now row dst (some sources) values ≠ .error e := by
  rw [← assertTransitions_ok]
  simp only [advance]
  cases assertTransitions dst sources <;> simp [bind, Except.bind]

/-- A write raises a `TransitionError` on every row, or on none. -/
theorem DaoOp.lawful_iff {op : DaoOp} (now : Time) (row : AsyncTask) :
    op.lawful = true ↔ ∀ e, op.run now row ≠ .error e := by
  cases op with
  | advance dst expected values =>
      cases expected with
      | none => simp [DaoOp.lawful, DaoOp.run, AsyncGateway.advance, bind, Except.bind]
      | some sources => rw [DaoOp.run, ← advance_lawful, DaoOp.lawful, decide_eq_true_iff]
  | enterUnknown code message expected =>
      rw [DaoOp.run, ← advance_lawful, DaoOp.lawful, decide_eq_true_iff]
  | relocateCompensate id target raw snapshot next note =>
      rw [DaoOp.run, ← advance_lawful, DaoOp.lawful, decide_eq_true_iff]
      simp
  | _ => simp [DaoOp.lawful, DaoOp.run]

/-! ### Where there is no edge -/

/-- The states an answer may call for that a row in the given state has no edge to. -/
def noWay : TaskStatus → List TaskStatus
  | accepted => [inProgress, pollUnrecognized, succeeded, failed]
  | submitUnknown => [inProgress, pollUnrecognized, succeeded, timeout, failed, dead, cancelled]
  | pollUnrecognized => [submitUnknown, dead, cancelled]
  | failed => [inProgress, pollUnrecognized, succeeded, timeout, failed]
  | _ => []

/-- The states the answers to the five handlers call for. -/
def calledFor : List TaskStatus :=
  [inProgress, submitUnknown, pollUnrecognized, failed, succeeded, cancelled, timeout, dead]

/-- Everywhere else there is one, but for a row that is there already. -/
theorem edge_of_way {src dst : TaskStatus} (hs : src ∉ businessTerminal) (hd : dst ∈ calledFor)
    (h : dst ∉ noWay src) (hne : src ≠ dst) : Edge src dst := by
  revert hs hd h hne
  cases src <;> cases dst <;> decide

/-! ### Programs that stay on the whitelist -/

/-- A write outside the whitelist. -/
def Unlawful : Op → Prop
  | .apply op _ => op.lawful = false
  | _ => False

/-- `p` asks for no write outside the whitelist, whatever it is answered. -/
abbrev Lawfully {α : Type} (p : Handler α) : Prop := p.Avoids Unlawful

section Lawfully

variable {C : Container} {task : AsyncTask} {t : ResolvedTemplate} {strategy : Strategy}
  {result : UpstreamCallResult}

theorem lawfully_of_writes {α : Type} {p : Handler α} (h : Writes (·.lawful = true) p) :
    Lawfully p := by
  intro o ho hbad
  cases o with
  | apply op also =>
      refine h _ ho ⟨op, also, rfl, fun hop => ?_⟩
      rw [show Unlawful (.apply op also) = (op.lawful = false) from rfl, hop] at hbad
      cases hbad
  | _ => exact hbad

theorem lawfully_ask {o : Op} (h : ¬ Unlawful o) : Lawfully (ask o) := .perform h

theorem lawfully_apply {op : DaoOp} (h : op.lawful = true) : Lawfully (applyOp op) :=
  lawfully_of_writes (writes_apply h)

/-- An advance from the one state that is expected. -/
theorem lawful_advance {src dst : TaskStatus} {values : List Assign} (h : Edge src dst) :
    (DaoOp.advance dst (some [src]) values).lawful = true :=
  decide_eq_true (List.forall_mem_singleton.mpr h)

theorem lawfully_advance {src dst : TaskStatus} {values : List Assign} (h : Edge src dst) :
    Lawfully (applyOp (.advance dst (some [src]) values)) :=
  lawfully_apply (lawful_advance h)

theorem lawfully_now : Lawfully now_ := lawfully_of_writes writes_now

theorem lawfully_nowPlus {delay : PyFloat} : Lawfully (nowPlus delay) :=
  lawfully_of_writes writes_nowPlus

theorem lawfully_backoff {attempt : ℤ} {base cap : Seconds} :
    Lawfully (backoff attempt base cap) := lawfully_of_writes writes_backoff

theorem lawfully_audit {event : AuditEvent} : Lawfully (audit event) :=
  lawfully_of_writes writes_audit

theorem lawfully_enqueue {queue name : String} : Lawfully (enqueue queue name) :=
  lawfully_of_writes writes_enqueue

theorem lawfully_noteAttribute {attributes : Json.Fields} : Lawfully (noteAttribute attributes) :=
  lawfully_of_writes (writes_noteAttribute fun _ => rfl)

theorem lawfully_enqueueSelfLater {delaySeconds : ℚ} : Lawfully (enqueueSelfLater delaySeconds) :=
  .bind lawfully_nowPlus fun _ => .bind (lawfully_apply rfl) fun _ => .pure _

theorem lawfully_finalizeTerminal {status : TaskStatus} :
    Lawfully (finalizeTerminal task status) := lawfully_of_writes writes_finalizeTerminal

theorem lawfully_advanceAndFinalize {dst : TaskStatus} {expected : List TaskStatus}
    {values : List Assign} (h : ∀ src ∈ expected, Edge src dst) :
    Lawfully (advanceAndFinalize task dst expected values) :=
  lawfully_of_writes (writes_advanceAndFinalize (decide_eq_true h))

/-! ### The submission -/

/-- Every end of a submission is on the whitelist. -/
theorem lawfully_handleSubmitResult : Lawfully (handleSubmitResult C task t strategy result) :=
  lawfully_of_writes (writes_handleSubmitResult.mono fun _ hop => by cases hop <;> rfl)

theorem lawfully_call {purpose : Purpose} {request : RenderedRequest} {context : Context}
    {bearer : Option String} : Lawfully (UpstreamClient.call C purpose request context bearer) := by
  refine .bind (lawfully_ask id) fun violation => ?_
  cases violation with
  | some violation => exact .pure _
  | none =>
      refine .bind (lawfully_ask id) fun _ => .bind (lawfully_ask id) fun answer => ?_
      cases answer with
      | error exc => exact .pure _
      | ok response => exact .bind lawfully_now fun _ => .pure _

theorem lawfully_submitWithSlot {bearer : String} (hd : Edge task.status dead) :
    Lawfully (submitWithSlot C task t strategy bearer) := by
  have body : Lawfully (loadCreateBody task) := by
    unfold loadCreateBody
    split
    · exact .pure _
    · refine .bind (lawfully_ask id) fun found => ?_
      split <;> exact .pure _
  refine .bind (lawfully_apply rfl) fun _ => .ite (.bind body fun found => ?_) (.pure _)
  cases found with
  | none =>
      exact .bind lawfully_now fun _ =>
        lawfully_advanceAndFinalize (List.forall_mem_singleton.mpr hd)
  | some body =>
      exact .bind (.ofExcept _) fun _ => .bind lawfully_call fun _ => lawfully_handleSubmitResult

theorem lawfully_withSlot {body : Handler Unit} (hb : Lawfully body) :
    Lawfully (withSlot C task body) :=
  .bind (lawfully_ask id) fun _ => .ite (.tryFinally hb (lawfully_ask id)) lawfully_enqueueSelfLater

end Lawfully

/-! ### What an answer calls for -/

section Called

variable (C : Container)

/-- The state a terminal callback calls for, where callbacks are the main source. -/
def callbackTarget (task : AsyncTask) (rawStatus : Option String) : Option TaskStatus :=
  (templateOf C task).bind fun t =>
    if t.statusSource = .poll then none else t.mapsStatus (rawStatus.getD "")

/-- What the client makes of an answer, but for the delay a `Retry-After` header asks for. -/
def resultOf (context : Context) (bearer : Option String) :
    Except HttpxError HttpResponse → UpstreamCallResult
  | .error exc => UpstreamClient.ofHttpxError context exc
  | .ok response => UpstreamClient.ofResponse C bearer.toList context 0 response

end Called

section Lawfully

variable {C : Container} {task : AsyncTask} {t : ResolvedTemplate} {strategy : Strategy}
  {result : UpstreamCallResult}

/-- No target depends on the delay. -/
theorem pollTarget_ofResponse {context : Context} {bearer : Option String} {now : Time}
    {response : HttpResponse} :
    pollTarget C task t strategy
        (UpstreamClient.ofResponse C bearer.toList context now response) =
      pollTarget C task t strategy (resultOf C context bearer (.ok response)) := by
  simp only [resultOf, UpstreamClient.ofResponse]
  split <;> rfl

theorem cancelAchieved_ofResponse {context : Context} {bearer : Option String} {now : Time}
    {response : HttpResponse} :
    cancelAchieved (UpstreamClient.ofResponse C bearer.toList context now response) =
      cancelAchieved (resultOf C context bearer (.ok response)) := by
  simp only [resultOf, UpstreamClient.ofResponse]
  split <;> rfl

/-! ### The polls -/

/-- The states that are polled. -/
def polledStates : List TaskStatus := [upstreamSubmitted, inProgress, pollUnrecognized]

theorem calledFor_of_polledTarget {dst : TaskStatus}
    (h : polledTarget C task t strategy result = .ok dst) :
    dst ∈ [inProgress, pollUnrecognized, succeeded, timeout, failed, dead] := by
  simp only [polledTarget, bind, Except.bind] at h
  repeat' split at h
  all_goals cases h
  all_goals decide

theorem errorTarget_cases {dst : TaskStatus} (h : errorTarget task result = some dst) :
    dst = dead ∨ dst = submitUnknown := by
  unfold errorTarget at h
  split at h
  · cases h
    exact .inl rfl
  · obtain ⟨c, -, hc⟩ := Option.bind_eq_some_iff.mp h
    split at hc
    · cases hc
      exact .inr rfl
    · cases hc

/-- **An answer to a poll that calls for no state without an edge** is dealt with on the
whitelist. -/
theorem lawfully_handlePollResult (hs : task.status ∉ businessTerminal)
    (hpolled : result.ok = false → task.status ∈ polledStates)
    (h : ∀ dst, pollTarget C task t strategy result = some dst → dst ∉ noWay task.status) :
    Lawfully (handlePollResult C task t strategy result) := by
  refine lawfully_of_writes (writes_handlePollResult (fun hok op hop => ?_) fun hok op hop => ?_)
  · have edge : ∀ dst, polledTarget C task t strategy result = .ok dst →
        (dst ∈ [inProgress, pollUnrecognized] → task.status ≠ dst) → Edge task.status dst := by
      intro dst target hne
      have hw := h dst (by simp [pollTarget, hok, target, Except.toOption])
      have hm := calledFor_of_polledTarget target
      -- of the states a poll ends in, only `failed` may be the one that was loaded
      revert hs hw hm hne
      cases task.status <;> cases dst <;> decide
    have ends : ∀ dst, polledTarget C task t strategy result = .ok dst →
        dst ∉ [inProgress, pollUnrecognized] → Edge task.status dst :=
      fun dst target hends => edge dst target fun hmem => absurd hmem hends
    cases hop with
    | unread | running => rfl
    | unrecognized _ _ _ hs target => exact lawful_advance (edge _ target fun _ => hs)
    | begun hs target => exact lawful_advance (edge _ target fun _ => hs)
    | succeeded _ _ _ _ _ _ _ target => exact lawful_advance (ends _ target (by decide))
    | expired _ _ _ _ _ target => exact lawful_advance (ends _ target (by decide))
    | retried _ _ _ _ _ _ target => exact lawful_advance (ends _ target (by decide))
    | exhausted _ _ _ _ _ target => exact lawful_advance (ends _ target (by decide))
  · have edge : ∀ dst, errorTarget task result = some dst → Edge task.status dst := by
      intro dst hd
      have hw := h dst (by simp [pollTarget, hok, hd])
      have hp := hpolled hok
      rcases errorTarget_cases hd with rfl | rfl <;> revert hw hp <;> cases task.status <;> decide
    cases hop with
    | rejected _ target => exact lawful_advance (edge _ target)
    | lost _ _ _ target => exact lawful_advance (edge _ target)
    | _ => rfl

end Lawfully

/-! ### The protocol -/

/-- What the next answer decides. -/
inductive Awaits : Type where
  | nothing
  /-- Whether the task is past its deadline. -/
  | deadline
  /-- What a callback of this raw status does to the row. -/
  | callback (rawStatus : Option String)
  deriving DecidableEq

/-- What is known of a handler: what it runs, the row and the credential it read last, what its next
answer decides, and whether one of its answers called for a state without an edge. -/
structure Fit where
  kind : Option Work := none
  loaded : Option AsyncTask := none
  bearer : Option String := none
  awaits : Awaits := .nothing
  lost : Bool := false

/-- The handlers that expect the state they loaded. -/
def Work.guarded : Work → Bool
  | .submitUpstream => true
  | .pollUpstream => true
  | .cancelUpstream => true
  | .query _ _ => true
  | .callback _ => true
  | _ => false

namespace Fit

variable (C : Container) (t : ResolvedTemplate) (m : Fit)

/-- The state an answer calls for, of a handler that loaded `row`. -/
def calls (row : AsyncTask) : Option Work → (o : Op) → Except Exn o.Ans → Option TaskStatus
  | some .submitUpstream, .now, .ok (now : Time) =>
      if m.awaits = .deadline ∧ row.deadlineAt.any (fun d => decide (d ≤ now)) = true then
        some timeout
      else none
  | some .pollUpstream, .pausedFor _, .ok (paused : Seconds) =>
      if ¬ 0 < paused ∧ nonEmpty row.upstreamTaskId = none then some submitUnknown else none
  | some .pollUpstream, .validateTarget _, .ok (some _) => some dead
  | some .pollUpstream, .recv .poll, .ok answer =>
      (templateOf C row).bind fun t' => pollTarget C row t' (C.strategyFor row.channel t')
        (resultOf C .poll m.bearer answer)
  | some (.query auth _), .recv .poll, .ok answer =>
      let result := resultOf C .poll (nonEmpty auth.bearer) answer
      if result.ok then pollTarget C row t (C.strategyFor auth.channel t) result else none
  | some .cancelUpstream, .recv .cancel, .ok answer =>
      if cancelAchieved (resultOf C .cancel m.bearer answer) then some cancelled else none
  | _, _, _ => none

/-- The answer calls for a state the row has no edge to. -/
def strays : (o : Op) → Except Exn o.Ans → Bool
  | .load, .ok (some row) =>
      match m.kind, m.awaits with
      | some (.callback _), .callback rawStatus =>
          (callbackTarget C row rawStatus).any fun dst => decide (dst ∈ noWay row.status)
      | _, _ => false
  | o, r => m.loaded.any fun row => (m.calls C t row m.kind o r).any fun dst =>
      decide (dst ∈ noWay row.status)

/-- After an operation was answered. -/
def next (o : Op) (r : Except Exn o.Ans) : Fit :=
  let m' := match o, r with
    | .load, .ok row => { m with loaded := row, awaits := .deadline }
    | .findTask _ _, .ok row => { m with loaded := row, awaits := .nothing }
    | .getCredential, .ok bearer => { m with bearer := bearer, awaits := .nothing }
    | .insertCallbackEvent rawStatus _, .ok true => { m with awaits := .callback rawStatus }
    | _, _ => { m with awaits := .nothing }
  { m' with lost := m.lost || m.strays C t o r }

theorem lost_next {o : Op} {r : Except Exn o.Ans} :
    (m.next C t o r).lost = (m.lost || m.strays C t o r) := rfl

theorem kind_next {o : Op} {r : Except Exn o.Ans} : (m.next C t o r).kind = m.kind := by
  unfold next
  dsimp only
  split <;> rfl

end Fit

/-- **What the five handlers may ask for**, as long as no answer called for a state without an
edge. -/
def whitelist (C : Container) (t : ResolvedTemplate) : Protocol effects Exn Work where
  State := Fit
  start κ := { kind := some κ }
  idle := {}
  gone m := m
  allows m o := m.kind.any Work.guarded = true → m.lost = false → ¬ Unlawful o
  next := Fit.next C t
  done _ := True
  done_idle := trivial
  done_gone _ := trivial

section Safe

variable {C : Container} {t : ResolvedTemplate} {m : Fit} {α β : Type}

/-- `p`, from `m` on, stays on the whitelist unless it is lost. -/
abbrev Safe (C : Container) (t : ResolvedTemplate) (p : Handler α) (m : Fit) : Prop :=
  wp (whitelist C t) p (fun _ _ => True) m

theorem safe_of_lawfully {p : Handler α} (h : Lawfully p) : Safe C t p m := by
  induction p generalizing m with
  | pure a => trivial
  | raise x => trivial
  | op o k ih =>
      exact ⟨fun _ _ => h o (.inl rfl), fun r => ih r fun o' ho => h o' (.inr ⟨r, ho⟩)⟩

theorem safe_of_lost {p : Handler α} (h : m.lost = true) : Safe C t p m := by
  induction p generalizing m with
  | pure a => trivial
  | raise x => trivial
  | op o k ih =>
      refine ⟨fun _ hl => ?_, fun r => ih r ?_⟩
      · rw [h] at hl
        cases hl
      · exact (Fit.lost_next C t m).trans (by rw [h]; rfl)

/-- An operation that is no write, and what follows each answer that did not stray. -/
theorem safe_ask {o : Op} {f : o.Ans → Handler β} (ho : ¬ Unlawful o)
    (hf : ∀ a, m.strays C t o (.ok a) = false → Safe C t (f a) (m.next C t o (.ok a))) :
    Safe C t ((ask o).bind f) m := by
  refine wp_bind.mpr (wp_perform.mpr ⟨fun _ _ => ho, fun r => ?_⟩)
  cases r with
  | error x => trivial
  | ok a =>
      cases hs : m.strays C t o (.ok a) with
      | false => exact hf a hs
      | true => exact safe_of_lost ((Fit.lost_next C t m).trans (by rw [hs, Bool.or_true]))

/-- The same, inside what goes before `f`. -/
theorem safe_ask_bind {o : Op} {g : o.Ans → Handler α} {f : α → Handler β} (ho : ¬ Unlawful o)
    (hg : ∀ a, m.strays C t o (.ok a) = false →
      Safe C t ((g a).bind f) (m.next C t o (.ok a))) :
    Safe C t (((ask o).bind g).bind f) m := by
  rw [Prog.bind_assoc]
  exact safe_ask ho hg

theorem safe_ofExcept {r : Except Exn α} {f : α → Handler β}
    (hf : ∀ a, r = .ok a → Safe C t (f a) m) : Safe C t ((Prog.ofExcept r).bind f) m := by
  cases r with
  | ok a => exact hf a rfl
  | error x => trivial

theorem safe_ofExcept_bind {γ : Type} {r : Except Exn γ} {g : γ → Handler α} {f : α → Handler β}
    (hg : ∀ a, r = .ok a → Safe C t ((g a).bind f) m) :
    Safe C t (((Prog.ofExcept r).bind g).bind f) m := by
  rw [Prog.bind_assoc]
  exact safe_ofExcept hg

theorem safe_tryFinally {p : Handler α} {q : Handler Unit} (hp : Safe C t p m)
    (hq : Lawfully q) : Safe C t (p.tryFinally q) m :=
  wp_tryFinally.mpr <| wp_mono (fun _ _ _ =>
    wp_mono (fun s _ _ => by cases s <;> trivial) (safe_of_lawfully hq)) hp

theorem safe_tryCatch {p : Handler α} {h : Exn → Handler α} (hp : Safe C t p m)
    (hh : ∀ x, Lawfully (h x)) : Safe C t (p.tryCatch h) m :=
  wp_tryCatch.mpr <| wp_mono (fun r _ _ => by
    cases r with
    | ok a => trivial
    | error x => exact safe_of_lawfully (hh x)) hp

theorem safe_bind {p : Handler α} {f : α → Handler β} (hp : Safe C t p m)
    (hf : ∀ a, Lawfully (f a)) : Safe C t (p.bind f) m :=
  wp_bind.mpr <| wp_mono (fun r _ _ => by
    cases r with
    | ok a => exact safe_of_lawfully (hf a)
    | error x => trivial) hp

theorem safe_template {task : AsyncTask} {f : ResolvedTemplate × Strategy → Handler β}
    (hf : ∀ t', templateOf C task = some t' →
      Safe C t (f (t', C.strategyFor task.channel t')) m) :
    Safe C t ((template C task).bind f) m := by
  show Safe C t (((Prog.ofExcept (C.require task.templateAlias task.templateVersion)).bind
    fun t' => .pure (t', C.strategyFor task.channel t')).bind f) m
  cases h : C.require task.templateAlias task.templateVersion with
  | error x => trivial
  | ok t' =>
      refine hf t' ?_
      unfold Container.require at h
      split at h <;> cases h
      assumption

/-- Whether the task is past its deadline: where that is asked right after `submit_upstream` loaded
it, there is an edge to `timeout`. -/
theorem safe_pastDeadline {task : AsyncTask} {f : Bool → Handler β}
    (hf : ∀ overdue m', m'.kind = m.kind → m'.loaded = m.loaded →
      (overdue = true → m.kind = some .submitUpstream → m.awaits = .deadline →
        m.loaded = some task → timeout ∉ noWay task.status) → Safe C t (f overdue) m') :
    Safe C t ((pastDeadline task).bind f) m := by
  unfold pastDeadline
  cases hd : task.deadlineAt with
  | none => exact hf false m rfl rfl fun h => absurd h (by decide)
  | some deadline =>
      refine safe_ask_bind id fun (now : Time) hs => hf _ _ rfl rfl fun hover hk ha hl hno => ?_
      have hlate : deadline ≤ now := of_decide_eq_true hover
      simp [Fit.strays, Fit.calls, hk, ha, hl, hd, hlate, hno] at hs

/-- The states of a handler between its reads. -/
structure Fit.Same (m m' : Fit) : Prop where
  kind : m'.kind = m.kind
  loaded : m'.loaded = m.loaded
  bearer : m'.bearer = m.bearer

/-- Two results that call for the same. -/
structure Alike (C : Container) (r r' : UpstreamCallResult) : Prop where
  poll : ∀ task t strategy, pollTarget C task t strategy r = pollTarget C task t strategy r'
  cancel : cancelAchieved r = cancelAchieved r'
  ok : r.ok = r'.ok

theorem alike_ofResponse {context : Context} {bearer : Option String} {now : Time}
    {response : HttpResponse} :
    Alike C (UpstreamClient.ofResponse C bearer.toList context now response)
      (resultOf C context bearer (.ok response)) where
  poll _ _ _ := pollTarget_ofResponse
  cancel := cancelAchieved_ofResponse
  ok := by
    simp only [resultOf, UpstreamClient.ofResponse]
    split <;> rfl

/-- A call of the client: the target is refused, or the call is answered. -/
theorem safe_call {purpose : Purpose} {request : RenderedRequest} {context : Context}
    {bearer : Option String} {f : UpstreamCallResult → Handler β}
    (hrefused : ∀ violation m', m.strays C t (.validateTarget request.url) (.ok (some violation)) =
      false → Safe C t (f { outcome := .ssrfRejected, error := some violation }) m')
    (hanswer : ∀ answer result m₁ m', m₁.strays C t (.recv purpose) (.ok answer) = false →
      m.Same m₁ → Alike C result (resultOf C context bearer answer) → Safe C t (f result) m') :
    Safe C t ((UpstreamClient.call C purpose request context bearer).bind f) m := by
  refine safe_ask_bind id fun violation hs => ?_
  cases violation with
  | some violation => exact hrefused violation _ hs
  | none =>
      refine safe_ask_bind id fun _ _ => safe_ask_bind id fun answer hr => ?_
      cases answer with
      | error exc => exact hanswer (.error exc) _ _ _ hr ⟨rfl, rfl, rfl⟩ ⟨fun _ _ _ => rfl, rfl, rfl⟩
      | ok response =>
          exact safe_ask_bind id fun now _ =>
            hanswer (.ok response) _ _ _ hr ⟨rfl, rfl, rfl⟩ alike_ofResponse

/-! ### The five handlers -/

theorem safe_submitUpstream (hk : m.kind = some .submitUpstream) :
    Safe C t (submitUpstream C) m := by
  refine safe_ask id fun row _ => ?_
  cases row with
  | none => trivial
  | some task =>
      refine wp_ite.mpr ⟨fun hs => safe_template fun t' _ => safe_pastDeadline
        fun overdue m' _ _ hover => ?_, fun _ => trivial⟩
      have active : task.status ∉ businessTerminal := by
        rcases hs with hs | hs <;> rw [hs] <;> decide
      cases overdue with
      | true =>
          have way := hover rfl hk rfl rfl
          exact safe_of_lawfully <| (if_pos rfl).symm ▸ lawfully_advanceAndFinalize
            (List.forall_mem_singleton.mpr (edge_of_way active (by decide) way
              (by rcases hs with hs | hs <;> rw [hs] <;> decide)))
      | false =>
          have dies : Edge task.status dead := by rcases hs with hs | hs <;> rw [hs] <;> decide
          have ends : Edge task.status cancelled := by
            rcases hs with hs | hs <;> rw [hs] <;> decide
          refine safe_of_lawfully <| (if_neg Bool.false_ne_true).symm ▸
            .ite ?_ (.bind (lawfully_ask id) fun bearer => ?_)
          · exact lawfully_advanceAndFinalize (List.forall_mem_singleton.mpr ends)
          · split
            · exact .bind lawfully_now fun _ => .bind (lawfully_advance dies) fun _ =>
                lawfully_finalizeTerminal
            · exact lawfully_withSlot (lawfully_submitWithSlot dies)

/-- A poll with the row and the credential the handler holds. -/
theorem safe_polled {task : AsyncTask} {t' : ResolvedTemplate} {bearer : Option String}
    (hk : m.kind = some .pollUpstream) (hl : m.loaded = some task) (hb : m.bearer = bearer)
    (ht : templateOf C task = some t') (hs : task.status ∈ polledStates) :
    Safe C t ((pollOnce C task t' bearer).bind fun result =>
      handlePollResult C task t' (C.strategyFor task.channel t') result) m := by
  have active : task.status ∉ businessTerminal := by
    revert hs
    cases task.status <;> decide
  refine safe_ofExcept_bind fun request _ => ?_
  refine safe_call (fun violation m' hv => ?_) fun answer result m₁ m' ha same alike => ?_
  · -- a refused target calls for `dead`
    refine safe_of_lawfully (lawfully_handlePollResult active (fun _ => hs) fun dst hd => ?_)
    obtain rfl : dst = dead := by simpa [pollTarget, UpstreamCallResult.ok, errorTarget] using hd.symm
    simpa [Fit.strays, Fit.calls, hk, hl] using hv
  · refine safe_of_lawfully (lawfully_handlePollResult active (fun _ => hs) fun dst hd => ?_)
    rw [alike.poll] at hd
    simpa [Fit.strays, Fit.calls, same.kind, same.loaded, same.bearer, hk, hl, hb, ht, hd] using ha

theorem safe_pollUpstream (hk : m.kind = some .pollUpstream) :
    Safe C t (pollUpstream C) m := by
  refine safe_ask id fun row _ => ?_
  cases row with
  | none => trivial
  | some task =>
      refine wp_ite.mpr ⟨fun _ => safe_of_lawfully lawfully_enqueue, fun _ => wp_ite.mpr
        ⟨fun hs => safe_template fun t' ht => safe_pastDeadline fun overdue m' hk' hl' _ => ?_,
          fun _ => trivial⟩⟩
      cases overdue with
      | true =>
          have ends : Edge task.status timeout := by
            revert hs
            cases task.status <;> decide
          exact safe_of_lawfully <| (if_pos rfl).symm ▸ .bind lawfully_now fun _ =>
            lawfully_advanceAndFinalize (List.forall_mem_singleton.mpr ends)
      | false =>
          refine (if_neg Bool.false_ne_true).symm ▸ safe_ask id fun (paused : Seconds) hp => ?_
          refine wp_ite.mpr ⟨fun _ => safe_of_lawfully lawfully_enqueueSelfLater, fun hnp => ?_⟩
          split
          · rename_i hid
            have hkind : m'.kind = some .pollUpstream := hk'.trans hk
            have way : submitUnknown ∉ noWay task.status := by
              simpa [Fit.strays, Fit.calls, hkind, hl', Fit.next, hnp, hid] using hp
            have doubts : Edge task.status submitUnknown := by
              revert hs way
              cases task.status <;> decide
            exact safe_of_lawfully <| .bind lawfully_now fun _ =>
              .bind (lawfully_advance doubts) fun _ => .pure _
          · refine safe_ask id fun bearer _ => safe_ask id fun decision _ => wp_ite.mpr
              ⟨fun _ => safe_tryFinally ?_ (lawfully_ask id),
                fun _ => safe_of_lawfully lawfully_enqueueSelfLater⟩
            exact safe_polled (hk'.trans hk) hl' rfl ht hs

theorem safe_cancelUpstream (hk : m.kind = some .cancelUpstream) :
    Safe C t (cancelUpstream C) m := by
  refine safe_ask id fun row _ => ?_
  cases row with
  | none => trivial
  | some task =>
      refine wp_ite.mpr ⟨fun _ => trivial, fun hs => safe_template fun t' _ => wp_ite.mpr
        ⟨fun _ => safe_of_lawfully ?_, fun _ => ?_⟩⟩
      · exact .bind lawfully_noteAttribute fun _ => .ite
          (.bind lawfully_now fun _ => .bind (lawfully_apply rfl) fun _ => lawfully_finalizeTerminal)
          lawfully_enqueueSelfLater
      split
      · exact safe_of_lawfully <| .bind lawfully_now fun _ =>
          lawfully_advanceAndFinalize (by decide)
      · refine safe_ask id fun bearer _ => safe_ofExcept fun request _ => safe_call
          (fun _ _ _ => safe_of_lawfully ?_) fun answer result m₁ m' ha same alike => ?_
        · exact .bind lawfully_noteAttribute fun _ => .bind lawfully_backoff fun _ =>
            lawfully_enqueueSelfLater
        refine wp_ite.mpr ⟨fun hdone => safe_of_lawfully ?_, fun _ => safe_of_lawfully ?_⟩
        · have hs' : task.status ∉ businessTerminal := by simpa [isBusinessTerminal] using hs
          rw [alike.cancel] at hdone
          have way : cancelled ∉ noWay task.status := by
            have hkind : m₁.kind = some .cancelUpstream := same.kind.trans hk
            have hloaded : m₁.loaded = some task := same.loaded
            have hbearer : m₁.bearer = bearer := same.bearer
            simpa [Fit.strays, Fit.calls, hkind, hloaded, hbearer, hdone] using ha
          have ends : Edge task.status cancelled := by
            revert hs' way
            cases task.status <;> decide
          exact .bind lawfully_now fun _ =>
            lawfully_advanceAndFinalize (List.forall_mem_singleton.mpr ends)
        · exact .bind lawfully_noteAttribute fun _ => .bind lawfully_backoff fun _ =>
            lawfully_enqueueSelfLater

/-- The refresh of a query, on the row it found. -/
theorem safe_refresh {auth : AuthContext} {identifier : String} {task : AsyncTask}
    (hk : m.kind = some (.query auth identifier)) (hl : m.loaded = some task)
    (hs : task.status ∉ businessTerminal) :
    Safe C t (refresh C task t (C.strategyFor auth.channel t) (nonEmpty auth.bearer)) m := by
  refine safe_tryCatch ?_ fun _ => .pure _
  refine safe_ofExcept_bind fun request _ => ?_
  refine safe_call (fun _ _ _ => trivial) fun answer result m₁ m' ha same alike => ?_
  refine wp_ite.mpr ⟨fun hok => safe_of_lawfully (.bind ?_ fun _ => .bind (lawfully_ask id)
    fun _ => .pure _), fun _ => trivial⟩
  refine lawfully_handlePollResult hs (fun hno => absurd (hok.symm.trans hno) (by decide))
    fun dst hd => ?_
  rw [alike.poll] at hd
  have hok' := alike.ok.symm.trans hok
  simpa [Fit.strays, Fit.calls, same.kind, same.loaded, hk, hl, hd, hok'] using ha

theorem lawfully_presignedResultUrl {task : AsyncTask} {t' : ResolvedTemplate} :
    Lawfully (presignedResultUrl C task t') := by
  unfold presignedResultUrl
  split
  · exact .ite (lawfully_ask id) (.pure _)
  · exact .pure _

theorem wp_snapshotStale {κ : Option Work} {found : Option AsyncTask} {task : AsyncTask}
    {minRefresh : ℚ} (hk : m.kind = κ) (hl : m.loaded = found) :
    wp (whitelist C t) (snapshotStale task minRefresh)
      (fun _ m' => m'.kind = κ ∧ m'.loaded = found) m := by
  unfold snapshotStale
  split
  · refine wp_bind.mpr (wp_perform.mpr ⟨fun _ _ => id, fun r => ?_⟩)
    cases r <;> exact ⟨hk, hl⟩
  · exact ⟨hk, hl⟩

theorem safe_query {auth : AuthContext} {identifier : String}
    (hk : m.kind = some (.query auth identifier)) :
    Safe C t (answering (handleQuery C auth t identifier)) m := by
  refine safe_bind ?_ fun _ => lawfully_ask id
  refine safe_ask id fun row _ => ?_
  cases row with
  | none => trivial
  | some task =>
      have rest : ∀ task' : AsyncTask, Lawfully (do
          let resultUrl ← presignedResultUrl C task' t
          let native ← raiseIn (buildNativeQueryResponse C task' t resultUrl)
          let minRefresh := (C.strategyFor auth.channel t).minRefreshInterval.getD 3
          pure (HttpAnswer.mk 200 (some native) (responseHeaders task' minRefresh))) := fun _ =>
        .bind lawfully_presignedResultUrl fun _ => .bind (.ofExcept _) fun _ => .pure _
      refine safe_ofExcept fun _ _ => wp_ite.mpr ⟨fun _ => safe_of_lawfully (rest task),
        fun hopen => ?_⟩
      have hs : task.status ∉ businessTerminal := by
        simp only [not_or] at hopen
        simpa [isBusinessTerminal] using hopen.1
      refine wp_bind.mpr (wp_mono (fun r m' hr => ?_) (wp_snapshotStale hk rfl))
      cases r with
      | error x => trivial
      | ok stale =>
          exact wp_ite.mpr ⟨fun _ => safe_bind (safe_refresh hr.1 hr.2 hs) rest,
            fun _ => safe_of_lawfully (rest task)⟩

theorem lawfully_finalizeTask : Lawfully (finalizeTask C) := by
  refine .bind (lawfully_ask id) fun row => ?_
  cases row with
  | none => exact .pure _
  | some task =>
      refine .ite (.bind (.bind (.ofExcept _) fun _ => .pure _) fun found => ?_) (.pure _)
      exact .ite (.bind (lawfully_ask id) fun _ => lawfully_ask id) (lawfully_ask id)

/-- A callback, where the state it calls for has an edge. -/
theorem lawfully_applyCallbackTo {task : AsyncTask} {t' : ResolvedTemplate} {event : CallbackEvent}
    (h : t'.statusSource ≠ .poll → ∀ dst, t'.mapsStatus (event.rawStatus.getD "") = some dst →
      Edge task.status dst) :
    Lawfully (applyCallbackTo C task t' event) := by
  unfold applyCallbackTo
  cases hm : t'.mapsStatus (event.rawStatus.getD "") with
  | none => exact .bind (lawfully_apply rfl) fun _ => .pure _
  | some mapped =>
      by_cases hsource : t'.statusSource = .poll
      · simp only [if_pos hsource]
        exact .bind lawfully_noteAttribute fun _ => .bind lawfully_now fun _ =>
          .bind (lawfully_apply rfl) fun _ => lawfully_audit
      · simp only [if_neg hsource]
        have edge := h hsource mapped hm
        refine .bind ?_ fun _ => .ite (.bind lawfully_audit fun _ => lawfully_finalizeTask) (.pure _)
        refine .bind lawfully_now fun _ => ?_
        rcases mapsStatus_cases hm with rfl | rfl | rfl <;> exact lawfully_advance edge

theorem safe_applyCallback {taskId : String} {event : CallbackEvent} {payload : Json}
    (hk : m.kind = some (.callback payload)) (ha : m.awaits = .callback event.rawStatus) :
    Safe C t (applyCallback C taskId event) m := by
  refine safe_ask id fun row hr => ?_
  cases row with
  | none => exact safe_of_lawfully lawfully_audit
  | some task =>
      refine wp_ite.mpr ⟨fun _ => safe_of_lawfully lawfully_audit, fun hopen => ?_⟩
      have hs : task.status ∉ businessTerminal := by simpa [isBusinessTerminal] using hopen
      cases ht : C.registry task.templateAlias task.templateVersion with
      | none => trivial
      | some t' =>
          refine safe_of_lawfully (lawfully_applyCallbackTo fun hsource dst hm => ?_)
          have way : dst ∉ noWay task.status := by
            simpa [Fit.strays, hk, ha, callbackTarget, templateOf, ht, hsource, hm] using hr
          rcases mapsStatus_cases hm with rfl | rfl | rfl <;> revert hs way <;>
            cases task.status <;> decide

theorem safe_receiveCallback {payload : Json} (hk : m.kind = some (.callback payload)) :
    Safe C t (receiveCallback C payload) m := by
  refine safe_ask id fun row _ => ?_
  cases row with
  | none => trivial
  | some task =>
      have rest : ∀ (rawStatus : Option String) (m' : Fit), m'.kind = some (.callback payload) →
          Safe C t (do
            let fresh : Bool ← ask (.insertCallbackEvent rawStatus payload)
            if fresh then applyCallback C task.taskId ⟨payload, rawStatus⟩ else pure ()) m' := by
        intro rawStatus m' hk'
        refine safe_ask id fun fresh _ => ?_
        cases fresh with
        | false => trivial
        | true => exact safe_applyCallback hk' rfl
      dsimp only
      split
      · exact safe_ofExcept fun value _ => rest _ _ hk
      · exact rest _ _ hk

/-- A handler that is none of the five may ask for anything. -/
theorem safe_of_unguarded {p : Handler α} (h : m.kind.any Work.guarded = false) : Safe C t p m := by
  induction p generalizing m with
  | pure a => trivial
  | raise x => trivial
  | op o k ih =>
      refine ⟨fun hg => ?_, fun r => ih r ?_⟩
      · rw [h] at hg
        cases hg
      · exact (congrArg (fun kind => Option.any Work.guarded kind) (Fit.kind_next C t m)).trans h

/-- **Every handler keeps to the whitelist.** -/
theorem keeps_whitelist (κ : Work) :
    Follows (whitelist C t) (κ.body C t) ((whitelist C t).start κ) := by
  suffices h : Safe C t (κ.body C t) { kind := some κ } from
    wp_mono (fun r _ _ => by cases r <;> trivial) h
  cases κ with
  | submitUpstream => exact safe_submitUpstream rfl
  | pollUpstream => exact safe_pollUpstream rfl
  | cancelUpstream => exact safe_cancelUpstream rfl
  | query auth identifier => exact safe_query rfl
  | callback payload => exact safe_receiveCallback rfl
  | _ => exact safe_of_unguarded rfl

end Safe

/-! ### In every run -/

section Runs

variable {C : Container} {t : ResolvedTemplate}

/-- Where the protocol has handler `u` after the log. -/
abbrev fit (C : Container) (t : ResolvedTemplate) (log : Log) (u : ℕ) : Fit :=
  (whitelist C t).after (M := gateway C t) log u

/-- No answer to one of the five handlers calls for a state without an edge. -/
def staysFit (C : Container) (t : ResolvedTemplate) : (gateway C t).Condition := fun _ l u o r =>
  (fit C t l u).kind.any Work.guarded = true → (fit C t l u).strays C t o r = false

/-- **The five handlers stay inside the whitelist**: a write they ask for has an edge from every
state it expects, and none of their operations was answered with a `TransitionError`. -/
structure Whitelisted (c : Config (gateway C t)) : Prop where
  lawful : ∀ u κ op also k, .spawn u κ ∈ c.log → κ.guarded = true →
    c.prog u = .op (.apply op also) k → op.lawful = true
  unraised : ∀ u κ o e, .spawn u κ ∈ c.log → κ.guarded = true →
    .act u o (.error (.transitionError e)) ∉ c.log

/-- Only a write outside the whitelist is answered with a `TransitionError`. -/
theorem reply_transitionError {row row' : AsyncTask} {o : Op} {γ : Choice} {e : TransitionError}
    (h : reply row o γ = some (.error (.transitionError e), row')) : Unlawful o := by
  obtain ⟨time, answer⟩ := γ
  cases o with
  | apply op also =>
      cases answer with
      | done =>
          by_contra hn
          have hlawful : op.lawful = true := by simpa [Unlawful] using hn
          have hrun := (DaoOp.lawful_iff time row).mp hlawful
          simp only [reply, DaoOp.exec] at h
          split at h
          · cases h
          · cases h
          · exact absurd ‹_› (hrun _)
      | _ => cases h
  | random =>
      cases answer <;> simp only [reply] at h <;> try cases h
      split at h <;> cases h
  | _ => cases answer <;> simp only [reply] at h <;> cases h

/-- What holds of the log of a run in which no answer strayed. -/
structure Tracked (C : Container) (t : ResolvedTemplate) (l : Log) : Prop where
  kind : ∀ u κ, .spawn u κ ∈ l → (fit C t l u).kind = some κ
  found : ∀ u, (fit C t l u).kind.any Work.guarded = true → (fit C t l u).lost = false
  unraised : ∀ u o e, (fit C t l u).kind.any Work.guarded = true →
    .act u o (.error (.transitionError e)) ∉ l

theorem fit_of_ne {l : Log} {e : Event effects Exn Work} {u : ℕ} (h : u ≠ e.thread) :
    fit C t (e :: l) u = fit C t l u :=
  Protocol.after_of_ne (P := whitelist C t) (M := gateway C t) h

namespace Tracked

variable {l : Log} {u : ℕ}

theorem start : Tracked C t [] where
  kind _ _ h := absurd h List.not_mem_nil
  found _ h := Bool.noConfusion h
  unraised _ _ _ h := Bool.noConfusion h

theorem spawn (h : Tracked C t l) (κ : Work) (hfresh : ∀ e ∈ l, e.thread ≠ u) :
    Tracked C t (.spawn u κ :: l) := by
  have hfit : fit C t (.spawn u κ :: l) u = { kind := some κ } := if_pos rfl
  refine ⟨fun v κ' hv => ?_, fun v hg => ?_, fun v o e hg he => ?_⟩
  · rcases List.mem_cons.mp hv with hv | hv
    · cases hv
      rw [hfit]
    · have hne : v ≠ u := hfresh _ hv
      rw [fit_of_ne hne]
      exact h.kind v κ' hv
  · by_cases hv : v = u
    · subst hv
      rw [hfit]
    · rw [fit_of_ne hv] at hg ⊢
      exact h.found v hg
  · rcases List.mem_cons.mp he with he | he
    · cases he
    · have hne : v ≠ u := hfresh _ he
      rw [fit_of_ne hne] at hg
      exact h.unraised v o e hg he

theorem act {o : Op} {r : Except Exn o.Ans} {γ : Choice} {w w' : World} (h : Tracked C t l)
    (ha : (whitelist C t).allows (fit C t l u) o) (hw : respond w o γ = some (r, w'))
    (hg : staysFit C t w l u o r) : Tracked C t (.act u o r :: l) := by
  have hfit : fit C t (.act u o r :: l) u = (fit C t l u).next C t o r := if_pos rfl
  have hkind : ∀ v, (fit C t (.act u o r :: l) v).kind = (fit C t l v).kind :=
    Protocol.forall_after (P := whitelist C t) (M := gateway C t)
      (Q := fun v m => m.kind = (fit C t l v).kind) (Fit.kind_next C t _) fun _ _ => rfl
  refine ⟨fun v κ hv => ?_, fun v hguard => ?_, fun v o' e hguard he => ?_⟩
  · rw [hkind]
    exact h.kind v κ ((List.mem_cons.mp hv).resolve_left (by simp))
  · rw [hkind] at hguard
    by_cases hv : v = u
    · subst hv
      rw [hfit, Fit.lost_next, h.found v hguard, hg hguard]
      rfl
    · rw [fit_of_ne hv]
      exact h.found v hguard
  · rw [hkind] at hguard
    rcases List.mem_cons.mp he with he | he
    · cases he
      exact ha hguard (h.found _ hguard) (reply_transitionError (respond_eq_some hw))
    · exact h.unraised v o' e hguard he

theorem halt (h : Tracked C t l) (u : ℕ) : Tracked C t (.halt u :: l) := by
  have hfit : ∀ v, fit C t (.halt u :: l) v = fit C t l v :=
    Protocol.forall_after (P := whitelist C t) (M := gateway C t)
      (Q := fun v m => m = fit C t l v) rfl fun _ _ => rfl
  refine ⟨fun v κ hv => ?_, fun v hg => ?_, fun v o e hg he => ?_⟩
  · rw [hfit]
    exact h.kind v κ ((List.mem_cons.mp hv).resolve_left (by simp))
  · rw [hfit] at hg ⊢
    exact h.found v hg
  · rw [hfit] at hg
    exact h.unraised v o e hg ((List.mem_cons.mp he).resolve_left (by simp))

end Tracked

/-- **Where no answer calls for a state without an edge**, the five handlers stay inside the
whitelist. -/
theorem whitelist_kept {w : World} {c : Config (gateway C t)}
    (h : Run (staysFit C t) ((gateway C t).initial w) c) : Whitelisted c := by
  have hk : Keeps (whitelist C t) c := Keeps.run keeps_whitelist (Keeps.initial w) h
  have inv : Tracked C t c.log :=
    Run.invariant (M := gateway C t) (fun _ l => Tracked C t l) keeps_whitelist (Keeps.initial w)
      Tracked.start (fun _ _ _ κ hfresh ht => ht.spawn κ hfresh)
      (fun _ _ _ _ _ _ _ ht ha hw hg => ht.act ha hw hg) (fun _ _ u ht => ht.halt u) h
  have guarded : ∀ {u κ}, .spawn u κ ∈ c.log → κ.guarded = true →
      (fit C t c.log u).kind.any Work.guarded = true := fun {u κ} hu hg => by
    rw [inv.kind u κ hu]
    exact hg
  refine ⟨fun u κ op also k hu hg hp => ?_, fun u κ o e hu hg => inv.unraised u o e (guarded hu hg)⟩
  have hn := hk.allows hp (guarded hu hg) (inv.found u (guarded hu hg))
  simpa [Unlawful] using hn

end Runs

/-! ### Runs of the sample gateway -/

/-- The task is created, its poll cannot be read, and it is cancelled upstream. -/
def cancelledUnrecognised {t : ResolvedTemplate} : Script t :=
  created [] ++ polled 1 (.obj [("id", .str "upstream")]) ++
    goesOn 1 0 [.done, .done, .done, .done, .done] ++
    .spawn .cancelUpstream ::
      goesOn 2 0 [.done, .text (some "key"), .text none, .done, answers (.obj []), .done, .done, .done]

/-- Whether `cancel_upstream` is the handler `u`. -/
def cancels (u : ℕ) : Event effects Exn Work → Bool
  | .spawn v .cancelUpstream => u == v
  | _ => false

/-- Whether an operation of handler `u` was answered with a `TransitionError`. -/
def refusedBy (u : ℕ) : Event effects Exn Work → Bool
  | .act v _ (.error (.transitionError _)) => u == v
  | _ => false

/-- The upstream cancels a task whose poll was not recognised, and `cancel_upstream` raises. -/
theorem whitelist_left :
    ∃ c, Run (gateway (sampleContainer sampleTemplate) sampleTemplate).anything
        (sampleStart sampleTemplate sampleRow) c ∧
      c.world.row.status = pollUnrecognized ∧
      c.prog 2 = .raise (.transitionError ⟨pollUnrecognized, cancelled⟩) ∧ ¬ Whitelisted c := by
  obtain ⟨c, hrun, hc⟩ := reached (t := sampleTemplate) sampleRow cancelledUnrecognised
    (fun _ _ _ _ _ => true)
    (fun c => decide (c.world.row.status = pollUnrecognized) && (match c.prog 2 with
      | .raise x => decide (x = .transitionError ⟨pollUnrecognized, cancelled⟩)
      | _ => false) && c.log.any (cancels 2) && c.log.any (refusedBy 2))
    (fun _ _ _ _ _ _ => trivial) (by decide +kernel)
  simp only [Bool.and_eq_true, decide_eq_true_eq, List.any_eq_true] at hc
  obtain ⟨⟨⟨hs, hp⟩, e, he, hcancels⟩, e', he', hrefused⟩ := hc
  refine ⟨c, hrun, hs, ?_, fun h => ?_⟩
  · split at hp
    · rename_i x hx
      rw [hx, of_decide_eq_true hp]
    · cases hp
  · unfold cancels at hcancels
    split at hcancels
    · unfold refusedBy at hrefused
      split at hrefused
      · obtain rfl := of_decide_eq_true hcancels
        obtain rfl := of_decide_eq_true hrefused
        exact h.unraised _ _ _ _ he rfl he'
      · cases hrefused
    · cases hcancels

/-- The check of `staysFit`. -/
def staysFitCheck (C : Container) (t : ResolvedTemplate) : (gateway C t).Check := fun _ l u o r =>
  !((fit C t l u).kind.any Work.guarded && (fit C t l u).strays C t o r)

theorem staysFit_of_check {C : Container} {t : ResolvedTemplate} {w : World} {l : Log} {u : ℕ}
    {o : Op} {r : Except Exn o.Ans} (h : staysFitCheck C t w l u o r = true) :
    staysFit C t w l u o r := fun hg => by
  simpa [staysFitCheck, hg] using h

/-- The task is created, and its poll reports a success. -/
def succeeds {t : ResolvedTemplate} : Script t :=
  created [] ++ polled 1 (.obj [("status", .str "succeeded")]) ++ goesOn 1 0 [.done, .done, .done]

theorem whitelist_kept_succeeded :
    ∃ c, Run (staysFit (sampleContainer sampleTemplate) sampleTemplate)
        (sampleStart sampleTemplate sampleRow) c ∧
      c.world.row.status = succeeded ∧ Whitelisted c := by
  obtain ⟨c, hrun, hc⟩ := reached (t := sampleTemplate) sampleRow succeeds (staysFitCheck _ _)
    (fun c => decide (c.world.row.status = succeeded))
    (fun _ _ _ _ _ => staysFit_of_check) (by decide +kernel)
  exact ⟨c, hrun, of_decide_eq_true hc, whitelist_kept hrun⟩

end AsyncGateway
