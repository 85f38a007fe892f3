import AsyncGateway.System.Changes
import AsyncGateway.System.Diligence

/-!
# System — the columns a state needs

What a careful write that hit does to the columns that say when a task is due (`Timed`), said once.
From it: every row of every run has the columns its state needs (`row_invariants`), and no task that
is under way is lost to the scheduler and the inspector, unless one of two writes is made
(`no_lost_task`).
-/

namespace AsyncGateway

open TaskStatus
open Interleave

variable {C : Container} {t : ResolvedTemplate} {now : Time} {row row' : AsyncTask}

/-! ### Runs under both protocols -/

/-- What the handlers keep to, in their discipline and in their books. -/
abbrev conduct (C : Container) (t : ResolvedTemplate) : Protocol effects Exn Work :=
  (discipline C t).both (bookkeeping C)

theorem follows_conduct (κ : Work) :
    Follows (conduct C t) (κ.body C t) ((conduct C t).start κ) :=
  (follows_body κ).both (settles_books κ).follows

section Conduct

variable {G : (gateway C t).Condition} {w : World} {c : Config (gateway C t)}

theorem keeps_conduct (h : Run G ((gateway C t).initial w) c) : Keeps (conduct C t) c :=
  Keeps.run follows_conduct (Keeps.initial w) h

/-- The operation a handler asks for next is one its books allow. -/
theorem books_allow (h : Run G ((gateway C t).initial w) c) {u : ℕ} {o : Op}
    {k : Except Exn o.Ans → Handler Unit} (hp : c.prog u = .op o k) :
    (book C t c.log u).Allows o := by
  have ha := ((keeps_conduct h).allows hp).2
  rwa [Protocol.after_both] at ha

/-- A handler that has something due is still to ask for an operation. -/
theorem books_ask (h : Run G ((gateway C t).initial w) c) {u : ℕ}
    (hd : (book C t c.log u).ending.settled = false) : ∃ o k, c.prog u = .op o k :=
  Run.asks (P := bookkeeping C) settles_books h fun hs => by
    rw [show (book C t c.log u).ending.settled = true from hs] at hd
    cases hd

/-- **What the start, every operation both protocols allow and every stop preserve holds in every
run.** -/
theorem conduct_invariant (Inv : World → Log → Prop) (start : Inv w [])
    (spawn : ∀ w l u κ, (∀ e ∈ l, e.thread ≠ u) → Inv w l → Inv w (.spawn u κ :: l))
    (act : ∀ w l u o γ r w', Inv w l → Allowed C t (phase C t l u) o →
      (book C t l u).Allows o → respond w o γ = some (r, w') → G w l u o r →
        Inv w' (.act u o r :: l))
    (halt : ∀ w l u, Inv w l → Inv w (.halt u :: l))
    (h : Run G ((gateway C t).initial w) c) : Inv c.world c.log := by
  refine Run.invariant (M := gateway C t) Inv follows_conduct (Keeps.initial w) (by exact start) spawn
    ?_ halt h
  intro w l u o γ r w' hl ha hw hg
  have ha : (conduct C t).allows ((discipline C t).after l u, (bookkeeping C).after l u) o := by
    rwa [Protocol.after_both] at ha
  exact act w l u o γ r w' hl ha.1 ha.2 hw hg

end Conduct

/-! ### What a careful write does to the timing -/

/-- The columns that say when a task is due. -/
structure Timing where
  unknownSince : Option Time
  nextPollAt : Option Time
  finishedAt : Option Time

def AsyncTask.timing (row : AsyncTask) : Timing :=
  ⟨row.unknownSince, row.nextPollAt, row.finishedAt⟩

/-- The columns a row has when it comes to its state. -/
structure Entered (row' : AsyncTask) : Prop where
  doubted : row'.status = submitUnknown ∨ row'.status = pollUnrecognized →
    row'.unknownSince ≠ none ∧ row'.nextPollAt ≠ none
  closed : row'.status ∈ [cancelled, timeout, dead, deadAwaitingConfirm] →
    row'.finishedAt ≠ none ∧ row'.nextPollAt = none
  finished : row'.status = succeeded → row'.finishedAt ≠ none

/-- What a write that hit did to the timing of a row. -/
inductive Timed (row row' : AsyncTask) : DaoOp → Prop where
  | still {op : DaoOp} (dst : row'.status = row.status) (timing : row'.timing = row.timing) :
      Timed row row' op
  | due {op : DaoOp} (src : row.status ∉ businessTerminal) (dst : row'.status = row.status)
      (since : row'.unknownSince = row.unknownSince)
      (next : row'.nextPollAt = row.nextPollAt ∨ row'.nextPollAt ≠ none) : Timed row row' op
  | faulted {expected : List TaskStatus} {code : ErrorCode} {message : Option String}
      {retryable : Bool} {nextPollAt : Option Time} {snapshot : Option Json}
      (src : row.status ∈ [upstreamSubmitted, inProgress, pollUnrecognized])
      (dst : row'.status = row.status) (since : row'.unknownSince = row.unknownSince)
      (next : row'.nextPollAt = nextPollAt) :
      Timed row row' (.markFailure expected code message retryable nextPollAt snapshot)
  | entered {op : DaoOp} (edge : Edge row.status row'.status) (open_ : row'.status ≠ failed)
      (entered : Entered row') : Timed row row' op
  | retried {expected : Option (List TaskStatus)} {values : List Assign}
      (edge : Edge row.status failed) (dst : row'.status = failed)
      (next : row.nextPollAt ≠ none ∨ values.any Assign.isNextPollAt = true →
        row'.nextPollAt ≠ none) : Timed row row' (.advance failed expected values)
  | transferred {op : DaoOp} (src : row.status = succeeded) (dst : row'.status = succeeded)
      (finished : row'.finishedAt = row.finishedAt) : Timed row row' op

theorem timed_of_advance {dst : TaskStatus} {expected : Option (List TaskStatus)}
    {values : List Assign} (hc : CarefulAdvance dst values)
    (h : advance now row dst expected values = .ok (some row')) :
    Timed row row' (.advance dst expected values) := by
  obtain ⟨edge, -, rfl⟩ := advance_eq_some h
  have hc := (hc now (row.touch now)).2
  by_cases hf : dst = failed
  · subst hf
    exact .retried edge rfl hc
  · refine .entered edge hf ⟨?_, ?_, ?_⟩ <;>
      cases dst <;> simp_all [AsyncTask.withStatus]

/-- A write that leaves the state of the row and its timing. -/
theorem still_of_cas {op : DaoOp} {expected : List TaskStatus} {values : List Assign}
    {extraWhere : Bool} (h : cas now row expected (cols values) extraWhere = some row')
    (hv : ∀ row, (assign row values).timing = row.timing) : Timed row row' op := by
  obtain ⟨-, -, rfl⟩ := cas_eq_some.mp h
  rw [foldl_cols]
  exact .still (assign_status _ _) (hv _)

/-- A write of an active row that leaves its state, and sets the time it is due at. -/
theorem timed_of_cas {op : DaoOp} {expected : List TaskStatus} {values : List Assign}
    {extraWhere : Bool} (h : cas now row expected (cols values) extraWhere = some row')
    (hs : ∀ s ∈ expected, s ∉ businessTerminal)
    (since : ∀ row, (assign row values).unknownSince = row.unknownSince)
    (next : ∀ row, (assign row values).nextPollAt ≠ none) : Timed row row' op := by
  obtain ⟨hmem, -, rfl⟩ := cas_eq_some.mp h
  rw [foldl_cols]
  exact .due (hs _ hmem) (assign_status _ _) (since _) (.inr (next _))

theorem release_timing {nextPollAt : Time} {decrement : Bool} {code : Option ErrorCode}
    {message : Option String} {retryable : Option Bool} {deadline : Option Time}
    (row : AsyncTask) :
    let row' := assign row (releaseValues nextPollAt decrement code message retryable none deadline)
    row'.unknownSince = row.unknownSince ∧ row'.nextPollAt = some nextPollAt := by
  cases decrement <;> cases deadline <;> simp [releaseValues, ifSome, Assign.apply]

/-- A write of the discipline that is careful, and hit. -/
theorem timed_run {l : Local} {b : Book} {op : DaoOp} (ha : AllowedWrite C t l op)
    (hc : Careful b op) (h : op.run now row = .ok (some row')) : Timed row row' op := by
  cases op with
  | markSubmitIntent startedAt =>
      exact still_of_cas (Except.ok.inj h) fun _ => rfl
  | markSubmitted upstreamTaskId rawStatus snapshot nextPollAt startedAt =>
      obtain ⟨hs, -, rfl⟩ := cas_eq_some.mp (Except.ok.inj h)
      rw [List.mem_singleton] at hs
      refine .entered ?_ ?_ ⟨?_, ?_, ?_⟩ <;>
        simp [cols, Write.apply, Assign.apply, hs, Edge, allowedTransitions]
  | advance dst expected values => exact timed_of_advance hc h
  | setCancelRequested => exact still_of_cas (Except.ok.inj h) fun _ => rfl
  | cancelImmediatelyAfterSubmit => exact ha.elim
  | setResultRef resultRef summary degraded =>
      obtain ⟨-, -, rfl⟩ := cas_eq_some.mp (Except.ok.inj h)
      exact .still rfl rfl
  | scheduleNextPoll nextPollAt =>
      exact timed_of_cas (Except.ok.inj h) (fun _ => mem_activeStatuses.mp) (fun _ => rfl)
        fun _ => by simp [Assign.apply]
  | recordPollResult snapshot rawStatus nextPollAt expected =>
      cases nextPollAt with
      | none =>
          exact still_of_cas (Except.ok.inj h) fun _ => by
            simp [ifSome, Assign.apply, AsyncTask.timing]
      | some next =>
          exact timed_of_cas (Except.ok.inj h) hc (fun _ => by simp [ifSome, Assign.apply])
            fun _ => by simp [ifSome, Assign.apply]
  | markFailure expected code message retryable nextPollAt snapshot =>
      obtain ⟨hs, -, rfl⟩ := cas_eq_some.mp (Except.ok.inj h)
      -- a failure is recorded without a snapshot
      obtain rfl : snapshot = none := ha
      rw [foldl_cols]
      exact .faulted (hc _ hs) (assign_status _ _) rfl rfl
  | enterUnknown code message expected =>
      rw [DaoOp.run] at h
      obtain ⟨edge, -, rfl⟩ := advance_eq_some h
      refine .entered edge ?_ ⟨?_, ?_, ?_⟩ <;>
        simp [AsyncTask.withStatus, advanceValues, internalTerminal, Assign.apply]
  | relocateCompensate upstreamTaskId target rawStatus snapshot nextPollAt note =>
      obtain ⟨-, -, ht⟩ := ha
      rw [DaoOp.run] at h
      obtain ⟨edge, src, rfl⟩ := advance_eq_some h
      obtain ⟨rfl, -⟩ | ⟨rfl, -⟩ := ht
      · rw [List.mem_singleton.mp (src _ rfl)] at edge
        exact absurd edge (edge_irrefl _)
      · exact .entered edge (by simp) ⟨by simp, by simp, by simp⟩
  | leaseDispatch leaseSeconds expected =>
      exact timed_of_cas (Except.ok.inj h) hc (fun _ => rfl) fun _ => by simp [Assign.apply]
  | releaseSubmitIntent expected nextPollAt decrement code message retryable attributes deadline =>
      obtain ⟨rfl, -⟩ := ha
      refine timed_of_cas (Except.ok.inj h) hc (fun row => (release_timing row).1) fun row => ?_
      rw [(release_timing row).2]
      simp
  | noteAttribute read attributes => exact still_of_cas (Except.ok.inj h) fun _ => rfl
  | scheduleTransferRetry nextPollAt attempts =>
      obtain ⟨hs, -, rfl⟩ := cas_eq_some.mp (Except.ok.inj h)
      exact .transferred (List.mem_singleton.mp hs) (List.mem_singleton.mp hs) rfl
  | markResultUnavailable detail =>
      obtain ⟨hs, -, rfl⟩ := cas_eq_some.mp (Except.ok.inj h)
      exact .transferred (List.mem_singleton.mp hs) (List.mem_singleton.mp hs) rfl

/-- What an operation both protocols allow did to the timing of the row. -/
theorem timed_move {l : Local} {b : Book} {w w' : World} {u : ℕ} {o : Op} {γ : Choice}
    {r : Except Exn o.Ans} (ha : Allowed C t l o) (hb : b.Allows o)
    (h : respond w o γ = some (r, w')) :
    hit (.act u o r) = none ∧ w'.row = w.row ∨
      ∃ op now, hit (.act u o r) = some op ∧ op.run now w.row = .ok (some w'.row) ∧
        AllowedWrite C t l op ∧ Careful b op ∧ Change w.row w'.row op ∧ Timed w.row w'.row op := by
  obtain hn | ⟨op, hh, hw, hch, -⟩ := move_cases (u := u) ha h
  · exact .inl hn
  · refine .inr ?_
    obtain ⟨also, he⟩ := hit_eq_some hh
    cases he
    obtain ⟨x, hx, -⟩ | ⟨hx, -⟩ | ⟨now, -, hrun⟩ := reply_apply (respond_eq_some h)
    · cases hx
    · cases hx
    · exact ⟨op, now, hh, hrun, hw, hb, hch, timed_run hw hb hrun⟩

/-! ### The columns of every reachable row -/

/-- The columns a row has for its state. -/
structure RowInvariants (row : AsyncTask) : Prop where
  doubted : row.status = submitUnknown ∨ row.status = pollUnrecognized → row.unknownSince ≠ none
  known : row.status ∈ [upstreamSubmitted, inProgress, pollUnrecognized] →
    row.upstreamTaskId ≠ none
  closed : row.status ∈ [timeout, dead, deadAwaitingConfirm, cancelled] →
    row.finishedAt ≠ none ∧ row.nextPollAt = none
  finished : row.status = succeeded → row.finishedAt ≠ none
  result : row.resultRef ≠ none → row.status = succeeded ∧ row.resultDegraded = none

theorem rowInvariants_inserted (h : Inserted row) : RowInvariants row := by
  constructor <;> simp [h.status, h.resultRef]

/-- What the timing of a row says for its state. -/
theorem RowInvariants.timing {op : DaoOp} (h : RowInvariants row) (ht : Timed row row' op) :
    (row'.status = submitUnknown ∨ row'.status = pollUnrecognized → row'.unknownSince ≠ none) ∧
      (row'.status ∈ [timeout, dead, deadAwaitingConfirm, cancelled] →
        row'.finishedAt ≠ none ∧ row'.nextPollAt = none) ∧
      (row'.status = succeeded → row'.finishedAt ≠ none) := by
  have active : row.status ∉ businessTerminal → row'.status = row.status →
      row'.status ∉ [timeout, dead, deadAwaitingConfirm, cancelled] ∧
        row'.status ≠ succeeded := by
    intro hs hd
    rw [hd]
    revert hs
    cases row.status <;> decide
  cases ht with
  | still dst timing =>
      simp only [AsyncTask.timing, Timing.mk.injEq] at timing
      rw [dst, timing.1, timing.2.1, timing.2.2]
      exact ⟨h.doubted, h.closed, h.finished⟩
  | due src dst since next =>
      obtain ⟨h₁, h₂⟩ := active src dst
      exact ⟨by rw [dst, since]; exact h.doubted, fun hc => absurd hc h₁, fun hc => absurd hc h₂⟩
  | faulted src dst since next =>
      obtain ⟨h₁, h₂⟩ := active (by revert src; cases row.status <;> decide) dst
      exact ⟨by rw [dst, since]; exact h.doubted, fun hc => absurd hc h₁, fun hc => absurd hc h₂⟩
  | entered edge open_ e =>
      refine ⟨fun hd => (e.doubted hd).1, fun hc => e.closed ?_, e.finished⟩
      simp only [List.mem_cons, List.not_mem_nil, or_false] at hc ⊢
      tauto
  | retried edge dst next => simp [dst]
  | transferred src dst finished =>
      simp only [dst, finished]
      exact ⟨by simp, by simp, fun _ => h.finished src⟩

/-- A row that is at work upstream has its id. -/
theorem RowInvariants.known_change {l : Local} {op : DaoOp} (h : RowInvariants row)
    (ha : AllowedWrite C t l op) (hc : Change row row' op)
    (hs : row'.status ∈ [upstreamSubmitted, inProgress, pollUnrecognized]) :
    row'.upstreamTaskId ≠ none := by
  have kept : row'.submission = row.submission →
      row.status ∈ [upstreamSubmitted, inProgress, pollUnrecognized] →
      row'.upstreamTaskId ≠ none := by
    intro hsub hsrc
    rw [show row'.upstreamTaskId = _ from congrArg Submission.upstreamTaskId hsub]
    exact h.known hsrc
  cases hc with
  | claimed src unclaimed dst submission reported => simp [dst] at hs
  | submitted src held dst submission reported =>
      rw [show row'.upstreamTaskId = _ from congrArg Submission.upstreamTaskId submission]
      simp
  | released src dst submission reported =>
      rw [show row'.upstreamTaskId = _ from congrArg Submission.upstreamTaskId submission]
      exact h.known (dst ▸ hs)
  | reopened src dst submission reported => simp [dst] at hs
  | @moved target expected values edge src dst closed submission reported =>
      refine kept submission ?_
      -- a task is at work upstream only after it was submitted
      have hne : target ≠ upstreamSubmitted := by
        rintro rfl
        exact ha.elim
      rw [dst] at hs
      revert edge hs hne
      cases target <;> cases row.status <;> simp [Edge, allowedTransitions]
  | doubted src dst submission reported => simp [dst] at hs
  | relocated src given dst submission reported =>
      rw [show row'.upstreamTaskId = _ from congrArg Submission.upstreamTaskId submission]
      simp
  | flagged src dst submission reported =>
      rw [show row'.upstreamTaskId = _ from congrArg Submission.upstreamTaskId submission]
      exact h.known (dst ▸ hs)
  | recorded src dst submission reported => exact kept submission (dst ▸ hs)
  | kept still dst submission reported => exact kept submission (dst ▸ hs)

/-- A result reference is of a task that succeeded, and that is not degraded. -/
theorem RowInvariants.result_run {l : Local} {b : Book} {op : DaoOp} (h : RowInvariants row)
    (ha : AllowedWrite C t l op) (hc : Careful b op) (hr : op.run now row = .ok (some row'))
    (hs : row'.resultRef ≠ none) : row'.status = succeeded ∧ row'.resultDegraded = none := by
  -- a task that has a result reference moves no more
  have stuck : ∀ {dst : TaskStatus} {expected values},
      advance now row dst expected values = .ok (some row') →
        row'.status = succeeded ∧ row'.resultDegraded = none := by
    intro dst expected values hadv
    obtain ⟨edge, -, rfl⟩ := advance_eq_some hadv
    have hsrc := (h.result (by simpa using hs)).1
    rw [hsrc] at edge
    cases edge
  have same : ∀ {expected values extraWhere},
      cas now row expected (cols values) extraWhere = some row' →
      (∀ row, (assign row values).resultDegraded = row.resultDegraded) →
        row'.status = succeeded ∧ row'.resultDegraded = none := by
    intro expected values extraWhere hcas hv
    obtain ⟨-, -, rfl⟩ := cas_eq_some.mp hcas
    rw [foldl_cols] at hs ⊢
    rw [assign_status, hv]
    exact h.result (by simpa using hs)
  cases op with
  | markSubmitIntent startedAt => exact same (Except.ok.inj hr) fun _ => rfl
  | markSubmitted upstreamTaskId rawStatus snapshot nextPollAt startedAt =>
      obtain ⟨hsrc, -, rfl⟩ := cas_eq_some.mp (Except.ok.inj hr)
      rw [List.mem_singleton] at hsrc
      have hd := (h.result (by simpa [Write.apply, cols, Assign.apply] using hs)).1
      rw [hsrc] at hd
      cases hd
  | advance dst expected values => exact stuck hr
  | setCancelRequested => exact same (Except.ok.inj hr) fun _ => rfl
  | cancelImmediatelyAfterSubmit => exact ha.elim
  | setResultRef resultRef summary degraded =>
      obtain rfl : degraded = none := hc
      obtain ⟨hsrc, -, rfl⟩ := cas_eq_some.mp (Except.ok.inj hr)
      exact ⟨List.mem_singleton.mp hsrc, rfl⟩
  | scheduleNextPoll nextPollAt => exact same (Except.ok.inj hr) fun _ => rfl
  | recordPollResult snapshot rawStatus nextPollAt expected =>
      refine same (Except.ok.inj hr) fun _ => ?_
      cases nextPollAt <;> simp [ifSome, Assign.apply]
  | markFailure expected code message retryable nextPollAt snapshot =>
      obtain rfl : snapshot = none := ha
      exact same (Except.ok.inj hr) fun _ => by simp [ifSome, Assign.apply]
  | enterUnknown code message expected =>
      rw [DaoOp.run] at hr
      exact stuck hr
  | relocateCompensate upstreamTaskId target rawStatus snapshot nextPollAt note =>
      rw [DaoOp.run] at hr
      exact stuck hr
  | leaseDispatch leaseSeconds expected => exact same (Except.ok.inj hr) fun _ => rfl
  | releaseSubmitIntent expected nextPollAt decrement code message retryable attributes deadline =>
      obtain ⟨rfl, -⟩ := ha
      refine same (Except.ok.inj hr) fun _ => ?_
      cases decrement <;> cases deadline <;> simp [releaseValues, ifSome, Assign.apply]
  | noteAttribute read attributes => exact same (Except.ok.inj hr) fun _ => rfl
  | scheduleTransferRetry nextPollAt attempts => exact same (Except.ok.inj hr) fun _ => rfl
  | markResultUnavailable detail =>
      obtain ⟨-, hn, rfl⟩ := cas_eq_some.mp (Except.ok.inj hr)
      rw [foldl_cols, assign_resultRef, AsyncTask.touch_resultRef] at hs
      exact absurd (Option.isNone_iff_eq_none.mp hn) hs

theorem RowInvariants.run {l : Local} {b : Book} {op : DaoOp} (h : RowInvariants row)
    (ha : AllowedWrite C t l op) (hc : Careful b op) (hr : op.run now row = .ok (some row'))
    (hch : Change row row' op) (ht : Timed row row' op) : RowInvariants row' := by
  obtain ⟨doubted, closed, finished⟩ := h.timing ht
  exact ⟨doubted, h.known_change ha hch, closed, finished, h.result_run ha hc hr⟩

/-- **Every reachable row has the columns its state needs.** -/
theorem row_invariants {w : World} {c : Config (gateway C t)} (hw : Inserted w.row)
    (h : Run (gateway C t).anything ((gateway C t).initial w) c) :
    RowInvariants c.world.row := by
  refine conduct_invariant (fun w _ => RowInvariants w.row) (rowInvariants_inserted hw)
    (fun _ _ _ _ _ hi => hi) ?_ (fun _ _ _ hi => hi) h
  intro w l u o γ r w' hi ha hb hr _
  obtain ⟨-, hrow⟩ | ⟨op, now, -, hrun, hw, hc, hch, ht⟩ := timed_move (u := u) ha hb hr
  · exact hrow ▸ hi
  · exact hi.run hw hc hrun hch ht

/-! ### No task is lost -/

/-- The scheduler or the inspector finds the task again, in time. -/
def FoundAgain (row : AsyncTask) : Prop :=
  ∀ stallSeconds, ∃ from_, ∀ now, from_ ≤ now →
    dueForDispatch now row = true ∨ stalledActive stallSeconds now row = true

/-- The task is due at some time, or is one whose heartbeat the inspector watches. -/
def Watched (row : AsyncTask) : Prop :=
  row.nextPollAt ≠ none ∨ row.status ∈ [upstreamSubmitted, inProgress]

theorem foundAgain_iff (ha : row.status ∈ activeStatuses) (hs : row.status ≠ accepted) :
    FoundAgain row ↔ Watched row := by
  constructor
  · intro h
    by_contra hn
    obtain ⟨hnext, hstatus⟩ := not_or.mp hn
    obtain ⟨from_, hfrom⟩ := h 0
    rcases hfrom from_ le_rfl with hd | hd
    · simp [dueForDispatch, not_not.mp hnext] at hd
    · simp only [stalledActive, Bool.and_eq_true, decide_eq_true_eq] at hd
      exact hstatus hd.1.1
  · intro h stallSeconds
    have hdispatch : (dispatchByStatus row.status).isSome = true := by
      revert ha hs
      cases row.status <;> decide
    cases hn : row.nextPollAt with
    | some next =>
        exact ⟨next, fun now hle => .inl (by simp [dueForDispatch, hdispatch, hn, hle])⟩
    | none =>
        have hstatus := h.resolve_left (by simp [hn])
        refine ⟨row.updatedAt + stallSeconds, fun now hle => .inr ?_⟩
        simpa [stalledActive, hn, le_sub_iff_add_le, hle] using hstatus

/-- A write does not leave a task without a time where neither scan finds it: a poll of a task that
is unrecognised does not come to a failure recorded without a time, and a task that has no time is
not reported as failed without one. -/
def DaoOp.keepsTime (row : AsyncTask) : DaoOp → Bool
  | .markFailure _ _ _ _ nextPollAt _ =>
      decide (row.status ≠ pollUnrecognized) || nextPollAt.isSome
  | .advance .failed _ values => row.nextPollAt.isSome || values.any Assign.isNextPollAt
  | _ => true

/-- Every write that hits keeps the time the task is found by. -/
def keepsTime (C : Container) (t : ResolvedTemplate) : (gateway C t).Condition :=
  fun w _ u o r => ∀ op, hit (.act u o r) = some op → op.keepsTime w.row = true

/-- The states in which a task is found by its time alone. -/
def Timed.byTime : List TaskStatus := [submitUnknown, pollUnrecognized, failed]

theorem nextPollAt_run {op : DaoOp} (h : row.status ∈ Timed.byTime → row.nextPollAt ≠ none)
    (ht : Timed row row' op) (hg : op.keepsTime row = true) (hs : row'.status ∈ Timed.byTime) :
    row'.nextPollAt ≠ none := by
  cases ht with
  | still dst timing =>
      rw [show row'.nextPollAt = row.nextPollAt from congrArg Timing.nextPollAt timing]
      exact h (dst ▸ hs)
  | due src dst since next =>
      rcases next with next | next
      · exact next ▸ h (dst ▸ hs)
      · exact next
  | faulted src dst since next =>
      rw [dst] at hs
      have hp : row.status = pollUnrecognized := by
        simp only [Timed.byTime, List.mem_cons, List.not_mem_nil, or_false] at src hs
        rcases src with hp | hp | hp <;> simp [hp] at hs ⊢
      rw [next]
      simpa [DaoOp.keepsTime, hp, Option.isSome_iff_ne_none] using hg
  | entered edge open_ e =>
      refine (e.doubted ?_).2
      simp only [Timed.byTime, List.mem_cons, List.not_mem_nil, or_false] at hs
      tauto
  | retried edge dst next =>
      refine next ?_
      simpa [DaoOp.keepsTime, Option.isSome_iff_ne_none] using hg
  | transferred src dst finished => simp [dst, Timed.byTime] at hs

/-- **No task is lost.**  In every run whose writes keep the time the task is found by, every
active task that is not only accepted is watched, and found again. -/
theorem no_lost_task {w : World} {c : Config (gateway C t)} (hw : Inserted w.row)
    (h : Run (keepsTime C t) ((gateway C t).initial w) c)
    (ha : c.world.row.status ∈ activeStatuses) (hs : c.world.row.status ≠ accepted) :
    Watched c.world.row ∧ FoundAgain c.world.row := by
  have timed : c.world.row.status ∈ Timed.byTime → c.world.row.nextPollAt ≠ none := by
    refine conduct_invariant (fun w _ => w.row.status ∈ Timed.byTime → w.row.nextPollAt ≠ none)
      (by simp [hw.status, Timed.byTime]) (fun _ _ _ _ _ hi => hi) ?_ (fun _ _ _ hi => hi) h
    intro w l u o γ r w' hi ha hb hr hg
    obtain ⟨-, hrow⟩ | ⟨op, now, hh, -, -, -, -, ht⟩ := timed_move (u := u) ha hb hr
    · exact hrow ▸ hi
    · exact nextPollAt_run hi ht (hg op hh)
  have hw : Watched c.world.row := by
    by_cases hm : c.world.row.status ∈ Timed.byTime
    · exact .inl (timed hm)
    · refine .inr ?_
      revert ha hs hm
      cases c.world.row.status <;> decide
  exact ⟨hw, (foundAgain_iff ha hs).mpr hw⟩

/-! ### Runs of the sample gateway -/

/-- The task is created, and a poll is answered with a document that has no status. -/
def unrecognised {t : ResolvedTemplate} : Script t :=
  created [] ++ polled 1 (.obj []) ++ goesOn 1 0 [.done, .done, .done, .done, .done]

theorem row_invariants_unrecognised :
    ∃ c, Run (gateway (sampleContainer sampleTemplate) sampleTemplate).anything
        (sampleStart sampleTemplate sampleRow) c ∧
      c.world.row.status = pollUnrecognized ∧ RowInvariants c.world.row := by
  obtain ⟨c, hrun, hc⟩ := reached (t := sampleTemplate) sampleRow unrecognised
    (fun _ _ _ _ _ => true) (fun c => decide (c.world.row.status = pollUnrecognized))
    (fun _ _ _ _ _ _ => trivial) (by decide +kernel)
  exact ⟨c, hrun, of_decide_eq_true hc, row_invariants inserted_sampleRow hrun⟩

/-- Its next poll is answered with 500, and its worker stops before it sets the next one. -/
def abandoned {t : ResolvedTemplate} : Script t :=
  unrecognised ++
    .spawn .pollUpstream ::
      goesOn 2 0 [.done, .rat 0, .text (some "key"), .slot ⟨true, none⟩, .text none, .done,
        .upstream (.ok { statusCode := 500 }), .done, .done, .done] ++ [.halt 2]

theorem task_lost :
    ∃ c, Run (gateway (sampleContainer sampleTemplate) sampleTemplate).anything
        (sampleStart sampleTemplate sampleRow) c ∧
      c.world.row.status = pollUnrecognized ∧ c.world.row.upstreamTaskId ≠ none ∧
      ¬ Watched c.world.row ∧ ¬ FoundAgain c.world.row := by
  obtain ⟨c, hrun, hc⟩ := reached (t := sampleTemplate) sampleRow abandoned
    (fun _ _ _ _ _ => true)
    (fun c => decide (c.world.row.status = pollUnrecognized ∧ c.world.row.upstreamTaskId ≠ none ∧
      c.world.row.nextPollAt = none))
    (fun _ _ _ _ _ _ => trivial) (by decide +kernel)
  obtain ⟨hs, hid, hn⟩ := of_decide_eq_true hc
  have hw : ¬ Watched c.world.row := by simp [Watched, hn, hs]
  refine ⟨c, hrun, hs, hid, hw, fun h => hw ((foundAgain_iff ?_ ?_).mp h)⟩ <;>
    simp [hs, activeStatuses]

/-- The check of `keepsTime`. -/
def keepsTimeCheck (C : Container) (t : ResolvedTemplate) : (gateway C t).Check :=
  fun w _ u o r => (hit (.act u o r)).all fun op => op.keepsTime w.row

theorem no_lost_task_unrecognised :
    ∃ c, Run (keepsTime (sampleContainer sampleTemplate) sampleTemplate)
        (sampleStart sampleTemplate sampleRow) c ∧
      c.world.row.status = pollUnrecognized ∧ Watched c.world.row ∧ FoundAgain c.world.row := by
  obtain ⟨c, hrun, hc⟩ := reached (t := sampleTemplate) (G := keepsTime _ _) sampleRow unrecognised
    (keepsTimeCheck _ _) (fun c => decide (c.world.row.status = pollUnrecognized))
    (fun _ _ _ _ _ h op hh => by simpa [keepsTimeCheck, hh] using h) (by decide +kernel)
  have hs := of_decide_eq_true hc
  exact ⟨c, hrun, hs, no_lost_task inserted_sampleRow hrun (by simp [hs, activeStatuses])
    (by simp [hs])⟩

end AsyncGateway
