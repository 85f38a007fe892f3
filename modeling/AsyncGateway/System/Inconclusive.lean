import AsyncGateway.System.Alone
import AsyncGateway.System.Conduct

/-!
# System — a confirmation that concludes nothing

`KeepsWaiting` says what `compensate_orphan` is to do with a task it can make nothing out about:
it stays in `submit_unknown`, counted and put off by a backoff.  There is no edge from
`submit_unknown` to itself, so it never does: the write raises, and the row is as it was
(`compensate_inconclusive`).
-/

namespace AsyncGateway

open TaskStatus TaskRuntime
open Interleave

variable (C : Container) (t : ResolvedTemplate)

/-- The task is one whose creation is to be confirmed by asking the upstream. -/
structure AwaitsConfirmation (task : AsyncTask) : Prop where
  status : task.status = submitUnknown
  upstreamTaskId : nonEmpty task.upstreamTaskId = none
  cancelRequested : task.cancelRequested = false
  template : C.require task.templateAlias task.templateVersion = .ok t
  auto : t.capabilities.confirmAutoAllowed = true

/-- When the task has been unknown for too long. -/
def unknownUntil (task : AsyncTask) : Time :=
  task.unknownSince.getD task.updatedAt +
    ((C.strategyFor task.channel t).unknownMaxLifetimeSeconds.getD 3600 : ℚ)

/-- The environment, while the task is in its lifetime: no answer of the upstream to the
confirmation is a conclusion. -/
def Unconfirmed (task : AsyncTask) (o : Op) (γ : Choice) : Prop :=
  γ.time < unknownUntil C t task ∧ ∀ r bearer c, o = .recv .confirm → γ.reply = .upstream r →
    verdict C t bearer r = .ok c → c.confirmed = false

/-- The handler kept the task waiting: counted, and put off by the backoff of that attempt. -/
structure KeepsWaiting (w : World) (x : Except Exn Unit) (w' : World) : Prop where
  ended : x = .ok ()
  status : w'.row.status = submitUnknown
  confirmAttempts : w'.row.confirmAttempts = w.row.confirmAttempts + 1
  nextPollAt : ∃ now random delay, w.clock ≤ now ∧ now ≤ w'.clock ∧ 0 ≤ random ∧ random < 1 ∧
    backoffSeconds random (w.row.confirmAttempts + 1) 10 300 = .ok delay ∧
    w'.row.nextPollAt = some (now + delay)

section Inconclusive

variable {C t} {w w' : World} {task : AsyncTask}

/-- Without an answer there is no conclusion. -/
theorem confirmationOf_unanswered {result : UpstreamCallResult} (h : result.response = none)
    {c : Confirmation} (hc : confirmationOf C t result = .ok c) : c.confirmed = false := by
  have hopen : confirmationOf C t result =
      .ok ⟨false, none, "confirmation inconclusive (query_by_client_key)"⟩ := by
    unfold confirmationOf
    rw [h]
    cases result.ok with
    | true => rfl
    | false => rfl
  rw [hopen] at hc
  cases hc
  rfl

/-- An answer of 500 and more is no conclusion. -/
theorem verdict_server_error {bearer : Option String} {response : HttpResponse} {c : Confirmation}
    (hcode : 500 ≤ response.statusCode)
    (h : verdict C t bearer (.ok response) = .ok c) : c.confirmed = false := by
  have hok : ¬ (200 ≤ response.statusCode ∧ response.statusCode < 300) := by omega
  have hno : ¬ (response.statusCode = 404 ∨ response.statusCode = 400) := by omega
  have hc := h
  simp [verdict, confirmationOf, UpstreamClient.ofResponse, UpstreamResponse.ok,
    UpstreamCallResult.ok, hok, hno, bind, Except.bind] at hc
  rw [← hc]

theorem rowKept_call {request : RenderedRequest} {bearer : Option String} :
    RowKept (Unconfirmed C t task) (UpstreamClient.call C .confirm request .poll bearer) w
      fun result => ∀ c, confirmationOf C t result = .ok c → c.confirmed = false := by
  refine RowKept.bind (RowKept.ask (fun _ _ h => nomatch h) fun _ _ _ _ _ => trivial) ?_
  intro violation _ w₁ _
  cases violation with
  | some violation =>
      exact RowKept.pure fun c hc => confirmationOf_unanswered rfl hc
  | none =>
      refine RowKept.bind (RowKept.ask (fun _ _ h => nomatch h) fun _ _ _ _ _ => trivial) ?_
      intro _ _ w₂ _
      have hrecv : RowKept (Unconfirmed C t task) (ask (.recv .confirm)) w₂ fun r =>
          ∀ c, verdict C t bearer r = .ok c → c.confirmed = false := by
        refine RowKept.ask (fun _ _ h => nomatch h) ?_
        intro γ r w₃ hG hr c hc
        have hreply : γ.reply = .upstream r := by
          obtain ⟨time, answer⟩ := γ
          have hr := respond_eq_some hr
          cases answer with
          | upstream r' =>
              obtain ⟨he, -⟩ := Prod.mk.inj (Option.some.inj hr)
              exact congrArg _ (Except.ok.inj he)
          | fail message =>
              obtain ⟨he, -⟩ := Prod.mk.inj (Option.some.inj hr)
              cases he
          | _ => cases hr
        exact hG.2 r bearer c rfl hreply hc
      refine RowKept.bind hrecv ?_
      intro r hr w₃ _
      cases r with
      | error exc => exact RowKept.pure hr
      | ok response =>
          refine RowKept.bind (RowKept.ask (fun _ _ h => nomatch h) fun _ _ _ _ _ => trivial) ?_
          intro now _ w₄ _
          refine RowKept.pure fun c hc => hr c ?_
          rwa [confirmationOf_ofResponse] at hc

theorem rowKept_confirm {bearer : Option String} :
    RowKept (Unconfirmed C t task) (confirm C task t bearer) w fun c => c.confirmed = false := by
  unfold confirm
  split
  · refine RowKept.bind (RowKept.raiseIn fun _ _ => trivial) ?_
    intro request _ w₁ _
    refine RowKept.bind rowKept_call ?_
    intro result hresult w₂ _
    exact RowKept.raiseIn hresult
  · split
    · exact RowKept.pure rfl
    · exact RowKept.pure rfl
  · exact RowKept.pure rfl

/-- The write of an open confirmation raises, at whatever time. -/
theorem relocate_raises (now : Time) (row : AsyncTask) (nextPollAt : Option Time)
    (note : Option String) :
    (DaoOp.relocateCompensate none submitUnknown none none nextPollAt note).run now row =
      .error ⟨submitUnknown, submitUnknown⟩ := by
  rfl

theorem fails_settleConfirmation {c : Confirmation} (hc : c.confirmed = false) :
    Fails (Unconfirmed C t task) (settleConfirmation task t c) w := by
  unfold settleConfirmation
  split
  · rename_i hconf _
    rw [hc] at hconf
    cases hconf
  · rename_i hconf _
    rw [hc] at hconf
    cases hconf
  · refine Fails.bind RowKept.backoff ?_
    intro delay _ w₁ _
    refine Fails.bind RowKept.nowPlus ?_
    intro next _ w₂ _
    exact Fails.bind_left (Fails.applyOp fun now => ⟨_, relocate_raises now _ _ _⟩)

theorem fails_compensateLoaded (h : AwaitsConfirmation C t task) :
    Fails (Unconfirmed C t task) (compensateLoaded C task) w := by
  unfold compensateLoaded
  have htemplate : RowKept (Unconfirmed C t task) (template C task) w
      fun r => r = (t, C.strategyFor task.channel t) := by
    have hrequire : RowKept (Unconfirmed C t task)
        (raiseIn (C.require task.templateAlias task.templateVersion)) w fun t' => t' = t :=
      RowKept.raiseIn fun t' ht' => Except.ok.inj (ht'.symm.trans h.template)
    exact RowKept.bind hrequire fun t' ht' _ _ => RowKept.pure (by rw [ht'])
  refine Fails.bind htemplate ?_
  rintro _ rfl w₁ _
  simp only [h.cancelRequested, h.upstreamTaskId, h.auto, not_true, if_false, Bool.false_eq_true]
  refine Fails.bind RowKept.now ?_
  rintro now ⟨γ, hγ, rfl⟩ w₂ _
  have hlife : ¬ ((C.strategyFor task.channel t).unknownMaxLifetimeSeconds.getD 3600 : ℚ) ≤
      γ.time - task.unknownSince.getD task.updatedAt := by
    have hbefore : γ.time < unknownUntil C t task := hγ.1
    unfold unknownUntil at hbefore
    linarith
  rw [if_neg hlife]
  refine Fails.bind (RowKept.ask (fun _ _ h => nomatch h) fun _ _ _ _ _ => trivial) ?_
  intro bearer _ w₃ _
  refine Fails.bind rowKept_confirm ?_
  intro c hc w₄ _
  exact fails_settleConfirmation hc

/-- **An inconclusive confirmation never keeps the task waiting**: the handler raises, and the row
is as it was. -/
theorem compensate_inconclusive {x : Except Exn Unit} (h : AwaitsConfirmation C t w.row)
    (ha : Alone (Unconfirmed C t w.row) (compensateOrphan C) w x w') :
    ¬ KeepsWaiting w x w' ∧ w'.row = w.row ∧ ∃ e, x = .error e := by
  have hfails : Fails (Unconfirmed C t w.row) (compensateOrphan C) w := by
    unfold compensateOrphan
    refine Fails.bind RowKept.load ?_
    rintro _ rfl w₁ hrow
    simp only [h.status, if_true]
    exact fails_compensateLoaded h
  obtain ⟨hrow, e, he⟩ := hfails x w' ha
  refine ⟨fun hk => ?_, hrow, e, he⟩
  rw [hk.ended] at he
  cases he

end Inconclusive

/-! ### A confirmation answered with 503 -/

section Sample

/-- A task the gateway lost sight of. -/
def lostSample : AsyncTask :=
  { sampleRow with status := submitUnknown, unknownSince := some 0, nextPollAt := some 0 }

/-- The upstream answers the confirmation with 503. -/
def unavailable : List Choice :=
  [.done, .done, .text (some "key"), .text none, .done, .upstream (.ok { statusCode := 503 }),
    .done, .rat 0, .done, .done].map fun reply => ⟨0, reply⟩

theorem lostSample_awaits :
    AwaitsConfirmation (sampleContainer sampleTemplate) sampleTemplate lostSample :=
  ⟨rfl, rfl, rfl, rfl, rfl⟩

theorem lostSample_unconfirmed {γ : Choice} (h : γ ∈ unavailable) (o : Op) :
    Unconfirmed (sampleContainer sampleTemplate) sampleTemplate lostSample o γ := by
  obtain ⟨answer, hanswer, rfl⟩ := List.mem_map.mp h
  refine ⟨by norm_num [unknownUntil, lostSample, Container.strategyFor, sampleContainer,
    sampleTemplate], ?_⟩
  intro r bearer c _ hr hc
  have hcode : r = .ok { statusCode := 503 } := by
    have hr : answer = .upstream r := hr
    subst hr
    simpa using hanswer
  subst hcode
  exact verdict_server_error (by norm_num) hc

theorem lostSample_alone : ∃ x w',
    Alone (Unconfirmed (sampleContainer sampleTemplate) sampleTemplate lostSample)
      (compensateOrphan (sampleContainer sampleTemplate)) ⟨lostSample, 0⟩ x w' ∧
    decide (x = .error (.transitionError ⟨submitUnknown, submitUnknown⟩)) = true :=
  exists_alone (fun x _ => decide (x = .error (.transitionError ⟨submitUnknown, submitUnknown⟩)))
    (by decide +kernel) fun _ hγ o _ _ _ _ => lostSample_unconfirmed hγ o

theorem compensate_lostSample : ∃ x w', ¬ KeepsWaiting ⟨lostSample, 0⟩ x w' ∧
    w'.row = lostSample ∧ ∃ e, x = .error e := by
  obtain ⟨x, w', h, -⟩ := lostSample_alone
  exact ⟨x, w', compensate_inconclusive lostSample_awaits h⟩

/-- The write raises, and the task is not put off. -/
theorem lostSample_not_kept : ∃ x w',
    AwaitsConfirmation (sampleContainer sampleTemplate) sampleTemplate lostSample ∧
      Alone (Unconfirmed (sampleContainer sampleTemplate) sampleTemplate lostSample)
        (compensateOrphan (sampleContainer sampleTemplate)) ⟨lostSample, 0⟩ x w' ∧
      x = .error (.transitionError ⟨submitUnknown, submitUnknown⟩) ∧
      ¬ KeepsWaiting ⟨lostSample, 0⟩ x w' := by
  obtain ⟨x, w', h, hx⟩ := lostSample_alone
  have hraised := of_decide_eq_true hx
  refine ⟨x, w', lostSample_awaits, h, hraised, fun hk => ?_⟩
  rw [hk.ended] at hraised
  cases hraised

end Sample

end AsyncGateway
