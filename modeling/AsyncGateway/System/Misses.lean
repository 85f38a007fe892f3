import AsyncGateway.System.Alone
import AsyncGateway.System.PollWrites

/-!
# System — the 404s of a task

The polls of a task, one after the other, each handled on the row as it is (`Polled`).  A 404 is
counted in the attributes, and the third that is counted takes the task to `submit_unknown`.  No
other answer takes the count back, so it is one of the 404s in a row only as long as no other
answer finds any counted (`lost_after_misses`).
-/

namespace AsyncGateway

open TaskStatus
open Interleave

variable {C : Container} {t : ResolvedTemplate} {strategy : Strategy}

/-- The row and the answers to the polls so far, the newest first, each one as `ok` says.  What is
written between the polls leaves the count, or drops it. -/
inductive Polled (C : Container) (ok : AsyncTask → UpstreamCallResult → Prop) :
    AsyncTask → List UpstreamCallResult → Prop where
  | fresh {row : AsyncTask} (h : row.attribute "poll_404_count" = none) : Polled C ok row []
  | between {row row' : AsyncTask} {polls : List UpstreamCallResult} (h : Polled C ok row polls)
      (hcount : row'.attribute "poll_404_count" = row.attribute "poll_404_count" ∨
        row'.attribute "poll_404_count" = none) : Polled C ok row' polls
  | poll {w w' : World} {polls : List UpstreamCallResult} {t : ResolvedTemplate}
      {strategy : Strategy} {result : UpstreamCallResult} {x : Except Exn Unit}
      (h : Polled C ok w.row polls) (hok : ok w.row result)
      (ha : Alone (fun _ _ => True) (handlePollResult C w.row t strategy result) w x w') :
      Polled C ok w'.row (result :: polls)

/-- Another answer than a 404 finds none counted. -/
def Uncounted (row : AsyncTask) (result : UpstreamCallResult) : Prop :=
  result.isMiss = false → notFoundCount row = 1

section Count

variable {row row' task : AsyncTask} {result : UpstreamCallResult} {op : DaoOp} {now : Time}

theorem notFoundCount_congr
    (h : row'.attribute "poll_404_count" = row.attribute "poll_404_count") :
    notFoundCount row' = notFoundCount row := by
  unfold AsyncTask.attribute at h
  rw [notFoundCount, h, notFoundCount]

theorem notFoundCount_of_none (h : row.attribute "poll_404_count" = none) :
    notFoundCount row = 1 := by
  unfold AsyncTask.attribute at h
  rw [notFoundCount, h]
  rfl

/-- A write of the poll leaves the attributes, or counts a 404. -/
theorem count_run (hop : PollWrite task result op) (h : op.run now row = .ok (some row')) :
    notFoundCount row' = notFoundCount row ∨
      result.isMiss = true ∧ notFoundCount row' = notFoundCount task + 1 := by
  have hattributes := DaoOp.attributes_run h
  have kept : op.leaves = none → notFoundCount row' = notFoundCount row := by
    intro hleaves
    rw [hleaves] at hattributes
    exact notFoundCount_congr (by rw [AsyncTask.attribute, hattributes]; rfl)
  cases hop with
  | scheduled next => exact .inl (kept rfl)
  | recorded snapshot rawStatus next => exact .inl (kept rfl)
  | faulted code message next => exact .inl (kept rfl)
  | lost values hvalues hmany => exact .inl (kept hvalues)
  | moved dst values hdst hvalues => exact .inl (kept hvalues)
  | missed read hmiss hfew =>
      refine .inr ⟨hmiss, ?_⟩
      have hlookup : (row'.attributes.getD []).lookup "poll_404_count" =
          some (.int (notFoundCount task)) := by
        rw [hattributes]
        exact (Json.lookup_update_of_nodup (by simp) _ _).trans (by simp)
      rw [notFoundCount, hlookup]

/-- A 404 loses the task only where enough are counted. -/
theorem lost_run (hop : PollWrite task result op) (h : op.run now row = .ok (some row'))
    (hmiss : result.isMiss = true) (hfew : notFoundCount task < poll404ConfirmThreshold)
    (hrow : row.status ≠ submitUnknown) : row'.status ≠ submitUnknown := by
  cases hop with
  | lost values hvalues hmany => exact absurd (hmany hmiss) (not_le.mpr hfew)
  | moved dst values hdst hvalues =>
      rw [DaoOp.run] at h
      obtain ⟨-, -, rfl⟩ := advance_eq_some h
      simpa using hdst
  | _ =>
      obtain ⟨-, -, rfl⟩ := cas_eq_some.mp (Except.ok.inj h)
      simpa [Write.apply] using hrow

end Count

section Polls

variable {w w' : World} {polls : List UpstreamCallResult} {result : UpstreamCallResult}
  {G : Op → Choice → Prop} {x : Except Exn Unit}

/-- The writes of the other handlers may stand between: they do not name the count, and
`note_attribute` writes what it read. -/
theorem Polled.write {ok : AsyncTask → UpstreamCallResult → Prop} {row row' : AsyncTask}
    {op : DaoOp} {now : Time} (h : Polled C ok row polls)
    (hrun : op.run now row = .ok (some row')) (hnames : op.names "poll_404_count" = false)
    (hread : ∀ read attributes, op = .noteAttribute read attributes → read = row.attributes) :
    Polled C ok row' polls := by
  refine h.between ?_
  have hattributes := DaoOp.attributes_run hrun
  cases hv : op.leaves with
  | none =>
      rw [hv] at hattributes
      exact .inl (congrArg (fun v => (v.getD []).lookup "poll_404_count") hattributes)
  | some v =>
      have hafter : row'.attribute "poll_404_count" =
          (op.carried.getD []).lookup "poll_404_count" := by
        rw [AsyncTask.attribute, hattributes, hv]
        exact DaoOp.lookup_leaves hv hnames
      cases op with
      | noteAttribute read attributes =>
          cases hread read attributes rfl
          exact .inl hafter
      | _ => exact .inr hafter

/-- One poll counts one 404 at most. -/
theorem count_polled (ha : Alone G (handlePollResult C w.row t strategy result) w x w') :
    notFoundCount w'.row = notFoundCount w.row ∨
      result.isMiss = true ∧ notFoundCount w'.row = notFoundCount w.row + 1 := by
  refine ha.keeps_row (I := fun row => notFoundCount row = notFoundCount w.row ∨
    result.isMiss = true ∧ notFoundCount row = notFoundCount w.row + 1)
    pollWrites_handlePollResult ?_ (.inl rfl)
  intro op now row row' hop hrun hrow
  exact (count_run hop hrun).elim (fun h => h ▸ hrow) .inr

/-- The 404s that are counted are the last answers. -/
theorem Polled.count_le {row : AsyncTask} (h : Polled C Uncounted row polls) :
    notFoundCount row ≤ ((polls.takeWhile UpstreamCallResult.isMiss).length : ℤ) + 1 := by
  induction h with
  | fresh h =>
      rw [notFoundCount_of_none h]
      simp
  | between h hcount ih =>
      rcases hcount with hcount | hcount
      · rwa [notFoundCount_congr hcount]
      · rw [notFoundCount_of_none hcount]
        omega
  | @poll w w' polls t strategy result x h hok ha ih =>
      cases hmiss : result.isMiss with
      | true =>
          have hle : notFoundCount w'.row ≤ notFoundCount w.row + 1 := by
            rcases count_polled ha with hcount | ⟨-, hcount⟩
            · omega
            · omega
          rw [List.takeWhile_cons_of_pos hmiss, List.length_cons]
          push_cast
          omega
      | false =>
          have hcount : notFoundCount w'.row = 1 := by
            rcases count_polled ha with hcount | ⟨hpos, -⟩
            · rw [hcount, hok hmiss]
            · rw [hmiss] at hpos
              cases hpos
          rw [hcount]
          omega

/-- **A 404 that takes the task to `submit_unknown` is one of as many in a row as it takes**, in
every run in which no other answer finds any 404 counted. -/
theorem lost_after_misses (h : Polled C Uncounted w.row polls)
    (ha : Alone G (handlePollResult C w.row t strategy result) w x w')
    (hmiss : result.isMiss = true) (hbefore : w.row.status ≠ submitUnknown)
    (hafter : w'.row.status = submitUnknown) :
    poll404ConfirmThreshold ≤
      (((result :: polls).takeWhile UpstreamCallResult.isMiss).length : ℤ) := by
  have hmany : poll404ConfirmThreshold ≤ notFoundCount w.row := by
    by_contra hfew
    refine ha.keeps_row (I := fun row => row.status ≠ submitUnknown) pollWrites_handlePollResult ?_
      hbefore hafter
    intro op now row row' hop hrun hrow
    exact lost_run hop hrun hmiss (not_le.mp hfew) hrow
  have hcount := h.count_le
  rw [List.takeWhile_cons_of_pos hmiss, List.length_cons]
  push_cast
  omega

end Polls

/-! ### A run with three 404s, and one with another answer between -/

section Sample

def polledSample : AsyncTask :=
  { sampleRow with status := inProgress, upstreamTaskId := some "upstream" }

/-- The answer of the status, as the client has it. -/
def answeredWith (statusCode : ℕ) : UpstreamCallResult :=
  UpstreamClient.ofResponse (sampleContainer sampleTemplate) [] .poll 0 { statusCode := statusCode }

/-- One poll of the task, answered with the status. -/
def handledPoll (w : World) (statusCode : ℕ) : Handler Unit :=
  handlePollResult (sampleContainer sampleTemplate) w.row sampleTemplate {}
    (answeredWith statusCode)

/-- What the environment answers while a 404 is counted. -/
def counting : List Choice :=
  [.done, .done, .done, .rat 0, .done, .done].map fun reply => ⟨0, reply⟩

/-- What it answers while a 500 is noted. -/
def faulting : List Choice :=
  [.done, .done, .rat 5, .done, .done].map fun reply => ⟨0, reply⟩

/-- What it answers while the task is lost. -/
def losing : List Choice := List.replicate 4 ⟨0, .done⟩

def missedOnce : World :=
  World.after ⟨polledSample, 0⟩ (handledPoll ⟨polledSample, 0⟩ 404) counting

def missedTwice : World := missedOnce.after (handledPoll missedOnce 404) counting

def thenFaulted : World := missedTwice.after (handledPoll missedTwice 500) faulting

theorem polled_missedTwice {ok : AsyncTask → UpstreamCallResult → Prop}
    (hok : ∀ row, ok row (answeredWith 404)) :
    Polled (sampleContainer sampleTemplate) ok missedTwice.row
      [answeredWith 404, answeredWith 404] := by
  have hfresh : Polled (sampleContainer sampleTemplate) ok polledSample [] := .fresh rfl
  have hfirst : ∃ x, Alone (fun _ _ => True) (handledPoll ⟨polledSample, 0⟩ 404)
      ⟨polledSample, 0⟩ x missedOnce := alone_after (by decide +kernel) fun _ _ _ _ _ _ _ => trivial
  have hsecond : ∃ x, Alone (fun _ _ => True) (handledPoll missedOnce 404) missedOnce x
      missedTwice :=
    alone_after (by decide +kernel) fun _ _ _ _ _ _ _ => trivial
  obtain ⟨x₁, h₁⟩ := hfirst
  obtain ⟨x₂, h₂⟩ := hsecond
  exact .poll (.poll hfresh (hok _) h₁) (hok _) h₂

/-- The third 404 in a row takes the task to `submit_unknown`. -/
theorem lost_after_misses_sample : poll404ConfirmThreshold ≤
    (([answeredWith 404, answeredWith 404, answeredWith 404].takeWhile
      UpstreamCallResult.isMiss).length : ℤ) := by
  have hpolled := @polled_missedTwice Uncounted fun row hmiss => by cases hmiss
  have hlost : ∃ x, Alone (fun _ _ => True) (handledPoll missedTwice 404) missedTwice x
      (missedTwice.after (handledPoll missedTwice 404) losing) :=
    alone_after (by decide +kernel) fun _ _ _ _ _ _ _ => trivial
  obtain ⟨x, h⟩ := hlost
  exact lost_after_misses hpolled h (by decide) (by decide +kernel) (by decide +kernel)

/-- The third one does so as well where a 500 came before it. -/
theorem lost_after_fault : ∃ w w' x,
    Polled (sampleContainer sampleTemplate) (fun _ _ => True) w.row
      [answeredWith 500, answeredWith 404, answeredWith 404] ∧
    Alone (fun _ _ => True) (handledPoll w 404) w x w' ∧ w.row.status ≠ submitUnknown ∧
    w'.row.status = submitUnknown ∧
    ¬ poll404ConfirmThreshold ≤
      (([answeredWith 404, answeredWith 500, answeredWith 404, answeredWith 404].takeWhile
        UpstreamCallResult.isMiss).length : ℤ) := by
  have hpolled := @polled_missedTwice (fun _ _ => True) fun _ => trivial
  have hfault : ∃ x, Alone (fun _ _ => True) (handledPoll missedTwice 500) missedTwice x
      thenFaulted := alone_after (by decide +kernel) fun _ _ _ _ _ _ _ => trivial
  have hlost : ∃ x, Alone (fun _ _ => True) (handledPoll thenFaulted 404) thenFaulted x
      (thenFaulted.after (handledPoll thenFaulted 404) losing) :=
    alone_after (by decide +kernel) fun _ _ _ _ _ _ _ => trivial
  obtain ⟨x, h⟩ := hfault
  obtain ⟨x', h'⟩ := hlost
  exact ⟨thenFaulted, _, x', .poll hpolled trivial h, h', by decide +kernel, by decide +kernel,
    by decide⟩

end Sample

end AsyncGateway
