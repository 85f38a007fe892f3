import AsyncGateway.Db.Attributes
import AsyncGateway.System.Alone
import AsyncGateway.System.Writes

/-!
# System — what the answer to a poll writes

`PollWrite` lists the kinds of writes that `_handle_poll_result` may ask for, and
`pollWrites_handlePollResult` says that there are no others.  What none of these breaks holds of the
row a handler leaves that works on it alone (`Alone.keeps_row`).
-/

namespace AsyncGateway

open TaskStatus TaskRuntime
open Interleave

section Writes

variable {ok : DaoOp → Prop}

/-- What no write of the handler breaks holds of the row it leaves. -/
theorem Alone.keeps_row {α : Type} {G : Op → Choice → Prop} {p : Handler α} {w w' : World}
    {x : Except Exn α} {I : AsyncTask → Prop} (h : Alone G p w x w') (hp : Writes ok p)
    (hI : ∀ op now row row', ok op → op.run now row = .ok (some row') → I row → I row')
    (hw : I w.row) : I w'.row := by
  have hstep : ∀ o (s : World) r (s' : World), (¬ ∃ op also, o = .apply op also ∧ ¬ ok op) →
      answersAs G o s r s' → I s.row → I s'.row := by
    rintro o s r s' hok ⟨γ, -, hr⟩ hs
    have hreply := respond_eq_some hr
    by_cases hwrite : ∃ op also, o = .apply op also
    · obtain ⟨op, also, rfl⟩ := hwrite
      have hop : ok op := not_not.mp fun hnot => hok ⟨op, also, rfl, hnot⟩
      rcases reply_apply hreply with ⟨_, -, hrow⟩ | ⟨-, hrow⟩ | ⟨now, -, hrun⟩
      · rwa [hrow]
      · rwa [hrow]
      · exact hI op now _ _ hop hrun hs
    · rw [reply_row hreply fun op also ho => hwrite ⟨op, also, ho⟩]
      exact hs
  exact Prog.Yields.keeps (I := fun s : World => I s.row) h hp hstep hw

end Writes

/-- The poll was answered with 404. -/
def UpstreamCallResult.isMiss (result : UpstreamCallResult) : Bool :=
  decide (result.response.map (·.statusCode) = some 404)

/-- The writes of `_handle_poll_result`. -/
inductive PollWrite (task : AsyncTask) (result : UpstreamCallResult) : DaoOp → Prop where
  | scheduled (next : Time) : PollWrite task result (.scheduleNextPoll next)
  | recorded (snapshot : Option Json) (rawStatus : Option String) (next : Option Time) :
      PollWrite task result (.recordPollResult snapshot rawStatus next [task.status])
  | faulted (code : ErrorCode) (message : Option String) (next : Option Time) :
      PollWrite task result (.markFailure [task.status] code message true next none)
  /-- A 404, of which there were too few. -/
  | missed (read : Option Json.Fields) (hmiss : result.isMiss = true)
      (hfew : notFoundCount task < poll404ConfirmThreshold) :
      PollWrite task result
        (.noteAttribute read [("poll_404_count", .int (notFoundCount task))])
  /-- The task is to be confirmed. -/
  | lost (values : List Assign) (hvalues : attributesOf values = none)
      (hmany : result.isMiss = true → poll404ConfirmThreshold ≤ notFoundCount task) :
      PollWrite task result (.advance submitUnknown (some [task.status]) values)
  | moved (dst : TaskStatus) (values : List Assign) (hdst : dst ≠ submitUnknown)
      (hvalues : attributesOf values = none) :
      PollWrite task result (.advance dst (some [task.status]) values)

/-- **The answer to a poll writes nothing else.** -/
theorem pollWrites_handlePollResult {C : Container} {t : ResolvedTemplate} {task : AsyncTask}
    {strategy : Strategy} {result : UpstreamCallResult} :
    Writes (PollWrite task result) (handlePollResult C task t strategy result) := by
  refine writes_handlePollResult (fun _ op hop => ?_) fun _ op hop => ?_
  · cases hop with
    | unread next _ => exact .recorded _ _ _
    | running native snapshot next _ => exact .recorded _ _ _
    | _ => exact .moved _ _ (by decide) rfl
  · cases hop with
    | rejected now _ => exact .moved _ _ (by decide) rfl
    | scheduled next => exact .scheduled next
    | faulted code message next => exact .faulted code message next
    | missed read hmiss hfew => exact .missed read (decide_eq_true hmiss) hfew
    | lost code message now target =>
        exact .lost _ rfl fun hmiss => not_lt.mp fun hfew =>
          not_few_of_errorTarget target ⟨of_decide_eq_true hmiss, hfew⟩

end AsyncGateway
