import AsyncGateway.Db.Columns
import AsyncGateway.System.Conduct

/-!
# System — what a write changes

What a write the discipline allows can have done to the row (`Change`), said once: the states it
goes from and to, the columns of the submission, and what it reports of the upstream.  Every
invariant of a run is proved from this, a case for each constructor.  A move of the pool is such a
change, or leaves the row as it was (`move_cases`).
-/

namespace AsyncGateway

open TaskStatus
open Interleave

variable {C : Container} {t : ResolvedTemplate} {l : Local} {now : Time} {row row' : AsyncTask}

/-! ### The columns after an advance -/

theorem assign_reported_congr {row₁ row₂ : AsyncTask} (h : row₁.reported = row₂.reported)
    (values : List Assign) : (assign row₁ values).reported = (assign row₂ values).reported := by
  induction values generalizing row₁ row₂ with
  | nil => exact h
  | cons a values ih =>
      refine ih ?_
      simp only [AsyncTask.reported, Reported.mk.injEq] at h ⊢
      cases a <;> simp [Assign.apply, h]

/-- What `advance` adds to the values of its caller says nothing of the submission, the identity or
the upstream. -/
theorem advanceValues_eq (now : Time) (dst : TaskStatus) (values : List Assign) :
    ∃ extra, advanceValues now dst values = values ++ extra ∧
      ∀ a ∈ extra, a.ofSubmission = false ∧ a.ofIdentity = false ∧ a.ofOutput = false := by
  have plain : ∀ (vs : List Assign) (p : Assign → Bool) (a : Assign),
      a.ofSubmission = false ∧ a.ofIdentity = false ∧ a.ofOutput = false →
      ∃ extra, setDefault vs p a = vs ++ extra ∧
        ∀ a ∈ extra, a.ofSubmission = false ∧ a.ofIdentity = false ∧ a.ofOutput = false := by
    intro vs p a ha
    unfold setDefault
    split
    · exact ⟨[], by simp, by simp⟩
    · exact ⟨[a], rfl, by simpa using ha⟩
  have finished := fun vs => plain vs Assign.isFinishedAt (.finishedAt (some now)) ⟨rfl, rfl, rfl⟩
  have polled := fun vs => plain vs Assign.isNextPollAt (.nextPollAt none) ⟨rfl, rfl, rfl⟩
  have none_ : ∃ extra, values = values ++ extra ∧
      ∀ a ∈ extra, a.ofSubmission = false ∧ a.ofIdentity = false ∧ a.ofOutput = false :=
    ⟨[], by simp, by simp⟩
  have both : ∃ extra, setDefault (setDefault values Assign.isFinishedAt (.finishedAt (some now)))
      Assign.isNextPollAt (.nextPollAt none) = values ++ extra ∧
        ∀ a ∈ extra, a.ofSubmission = false ∧ a.ofIdentity = false ∧ a.ofOutput = false := by
    obtain ⟨e₁, h₁, p₁⟩ := finished values
    obtain ⟨e₂, h₂, p₂⟩ := polled (values ++ e₁)
    rw [h₁, h₂]
    refine ⟨e₁ ++ e₂, List.append_assoc _ _ _, fun a ha => ?_⟩
    exact (List.mem_append.mp ha).elim (p₁ a) (p₂ a)
  unfold advanceValues
  cases dst <;> simp only [internalTerminal] <;>
    first
      | exact none_
      | exact finished values
      | exact both

/-- The row after an advance, but for the status: the values of its caller are all it assigns to
the submission, the identity and the columns of the upstream. -/
structure Advanced (row row' : AsyncTask) (values : List Assign) : Prop where
  submission : (∀ a ∈ values, a.ofSubmission = false) → row'.submission = row.submission
  identity : (∀ a ∈ values, a.ofIdentity = false) → row'.identity = row.identity
  reported : row'.reported = (assign row values).reported

theorem advanced_of_advance {dst : TaskStatus} {expected : Option (List TaskStatus)}
    {values : List Assign} (h : advance now row dst expected values = .ok (some row')) :
    Advanced row row' values := by
  obtain ⟨-, -, rfl⟩ := advance_eq_some h
  obtain ⟨extra, he, hp⟩ := advanceValues_eq now dst values
  rw [he]
  refine ⟨fun hv => ?_, fun hv => ?_, ?_⟩
  · rw [AsyncTask.withStatus_submission, assign_submission, AsyncTask.touch_submission]
    exact fun a ha => (List.mem_append.mp ha).elim (hv a) fun h => (hp a h).1
  · rw [AsyncTask.withStatus_identity, assign_identity, AsyncTask.touch_identity]
    exact fun a ha => (List.mem_append.mp ha).elim (hv a) fun h => (hp a h).2.1
  · rw [AsyncTask.withStatus_reported, assign_append, assign_reported fun a h => (hp a h).2.2]
    exact assign_reported_congr (AsyncTask.touch_reported _ _) _

/-! ### What a write changes -/

/-- The writes that change neither the state, nor the submission, nor what is reported. -/
def DaoOp.still : DaoOp → Bool
  | .markSubmitIntent _ => false
  | .markSubmitted _ _ _ _ _ => false
  | .advance _ _ _ => false
  | .setCancelRequested => false
  | .cancelImmediatelyAfterSubmit => false
  | .recordPollResult _ _ _ _ => false
  | .enterUnknown _ _ _ => false
  | .relocateCompensate _ _ _ _ _ _ => false
  | .releaseSubmitIntent _ _ _ _ _ _ _ _ => false
  | _ => true

/-- What an allowed write that hit did to the row. -/
inductive Change (row row' : AsyncTask) : DaoOp → Prop where
  | claimed {startedAt : Option Time} {now : Time} (src : row.status = accepted)
      (unclaimed : row.submitStartedAt = none) (dst : row'.status = accepted)
      (submission : row'.submission = { row.submission with
        submitStartedAt := some now, attempts := row.attempts + 1 })
      (reported : row'.reported = row.reported) : Change row row' (.markSubmitIntent startedAt)
  | submitted {upstreamTaskId : String} {rawStatus : Option String} {snapshot : Option Json}
      {nextPollAt : Time} {startedAt : Option Time} (src : row.status = accepted)
      (held : row.submitStartedAt ≠ none) (dst : row'.status = upstreamSubmitted)
      (submission : row'.submission = { row.submission with upstreamTaskId := some upstreamTaskId })
      (reported : row'.reported = ⟨snapshot, rawStatus⟩) :
      Change row row' (.markSubmitted upstreamTaskId rawStatus snapshot nextPollAt startedAt)
  | released {expected : List TaskStatus} {nextPollAt : Time} {decrementAttempts : Bool}
      {code : Option ErrorCode} {message : Option String} {retryable : Option Bool}
      {attributes : Option Json.Fields} {deadline : Option Time} (src : row.status ∈ expected)
      (dst : row'.status = row.status)
      (submission : row'.submission = { row.submission with
        submitStartedAt := none,
        attempts := if decrementAttempts then row.attempts - 1 else row.attempts })
      (reported : row'.reported = row.reported) :
      Change row row' (.releaseSubmitIntent expected nextPollAt decrementAttempts code message
        retryable attributes deadline)
  | reopened {expected : Option (List TaskStatus)} {values : List Assign}
      (src : row.status = submitUnknown) (dst : row'.status = accepted)
      (submission : row'.submission = { row.submission with submitStartedAt := none })
      (reported : row'.reported = row.reported) : Change row row' (.advance accepted expected values)
  | moved {target : TaskStatus} {expected : Option (List TaskStatus)} {values : List Assign}
      (edge : Edge row.status target) (src : ∀ sources, expected = some sources → row.status ∈ sources)
      (dst : row'.status = target) (closed : target ≠ accepted)
      (submission : row'.submission = row.submission)
      (reported : row'.reported = (assign row values).reported) :
      Change row row' (.advance target expected values)
  | doubted {code : ErrorCode} {message : Option String} {expected : Option (List TaskStatus)}
      (src : row.status = accepted) (dst : row'.status = submitUnknown)
      (submission : row'.submission = row.submission) (reported : row'.reported = row.reported) :
      Change row row' (.enterUnknown code message expected)
  | relocated {upstreamTaskId : String} {rawStatus : Option String} {snapshot : Option Json}
      {nextPollAt : Option Time} {note : Option String} (src : row.status = submitUnknown)
      (given : upstreamTaskId ≠ "") (dst : row'.status = upstreamSubmitted)
      (submission : row'.submission = { row.submission with upstreamTaskId := some upstreamTaskId })
      (reported : row'.reported = row.reported) :
      Change row row' (.relocateCompensate (some upstreamTaskId) upstreamSubmitted rawStatus
        snapshot nextPollAt note)
  | flagged (src : row.status ∈ cancelPreconditions) (dst : row'.status = row.status)
      (submission : row'.submission = { row.submission with cancelRequested := true })
      (reported : row'.reported = row.reported) : Change row row' .setCancelRequested
  | recorded {snapshot : Option Json} {rawStatus : Option String} {nextPollAt : Option Time}
      {expected : List TaskStatus} (src : row.status ∈ expected) (dst : row'.status = row.status)
      (submission : row'.submission = row.submission)
      (reported : row'.reported = ⟨snapshot, rawStatus⟩) :
      Change row row' (.recordPollResult snapshot rawStatus nextPollAt expected)
  | kept {op : DaoOp} (still : op.still = true) (dst : row'.status = row.status)
      (submission : row'.submission = row.submission) (reported : row'.reported = row.reported) :
      Change row row' op

/-- A write of columns that say nothing of the submission and report nothing. -/
theorem kept_of_cas {op : DaoOp} {expected : List TaskStatus} {values : List Assign}
    {extraWhere : Bool} (still : op.still = true)
    (h : cas now row expected (cols values) extraWhere = some row')
    (hv : ∀ a ∈ values, a.ofSubmission = false ∧ a.ofOutput = false) : Change row row' op := by
  obtain ⟨-, -, rfl⟩ := cas_eq_some.mp h
  rw [foldl_cols]
  refine .kept still (assign_status _ _) ?_ ?_
  · rw [assign_submission fun a ha => (hv a ha).1, AsyncTask.touch_submission]
  · rw [assign_reported fun a ha => (hv a ha).2, AsyncTask.touch_reported]

theorem change_of_advance {dst : TaskStatus} {expected : Option (List TaskStatus)}
    {values : List Assign} (ha : AllowedAdvance C t l dst expected values)
    (h : advance now row dst expected values = .ok (some row')) :
    Change row row' (.advance dst expected values) := by
  have hadv := advanced_of_advance h
  obtain ⟨edge, src, he⟩ := advance_eq_some h
  have hdst : row'.status = dst := by rw [he]; rfl
  by_cases hacc : dst = accepted
  · subst hacc
    obtain ⟨hexp, ⟨now', rfl⟩, -⟩ := ha
    have hsrc : row.status = submitUnknown := List.mem_singleton.mp (src _ hexp)
    refine .reopened hsrc hdst ?_ (hadv.reported.trans (assign_reported ?_))
    · obtain ⟨extra, hextra, hp⟩ := advanceValues_eq now accepted (recreateValues now')
      rw [he, hextra, AsyncTask.withStatus_submission, assign_append,
        assign_submission fun a h => (hp a h).1]
      rfl
    · simp [recreateValues, Assign.ofOutput]
  · -- whatever the state, no handler sets a column of the submission beside it
    have hq : ∀ a ∈ values, a.ofSubmission = false := by
      intro a hv
      cases dst with
      | accepted => exact absurd rfl hacc
      | upstreamSubmitted => exact ha.elim
      | submitUnknown => exact (ha.2.1 a hv).1
      | succeeded => exact (ha a hv).1
      | timeout => exact (ha a hv).1
      | _ => exact (ha.1 a hv).1
    exact .moved edge src hdst hacc (hadv.submission hq) hadv.reported

theorem release_submission {nextPollAt : Time} {decrement : Bool} {code : Option ErrorCode}
    {message : Option String} {retryable : Option Bool} {deadline : Option Time}
    (row : AsyncTask) :
    (assign row (releaseValues nextPollAt decrement code message retryable none
        deadline)).submission =
      { row.submission with
        submitStartedAt := none
        attempts := if decrement then row.attempts - 1 else row.attempts } := by
  cases decrement <;> cases deadline <;>
    simp [releaseValues, ifSome, Assign.apply, AsyncTask.submission] <;> omega

/-- A task in doubt is found: it gets its id. -/
theorem change_of_relocate {upstreamTaskId : Option String} {target : TaskStatus}
    {nextPollAt : Option Time} {note : Option String}
    (ha : AllowedRelocate C l upstreamTaskId target)
    (h : (DaoOp.relocateCompensate upstreamTaskId target none none nextPollAt note).run now row =
      .ok (some row')) :
    Change row row' (.relocateCompensate upstreamTaskId target none none nextPollAt note) := by
  rw [DaoOp.run] at h
  have hadv := advanced_of_advance h
  obtain ⟨edge, src, he⟩ := advance_eq_some h
  have src := List.mem_singleton.mp (src _ rfl)
  rw [src] at edge
  obtain ⟨rfl, -⟩ | ⟨rfl, hid, -⟩ := ha
  · -- to `submit_unknown`, where it is: there is no such edge
    exact absurd edge (edge_irrefl _)
  · obtain ⟨id, hid⟩ := Option.isSome_iff_exists.mp hid
    obtain ⟨rfl, hne⟩ := nonEmpty_eq_some.mp hid
    have hid' : nonEmpty (some id) = some id := nonEmpty_eq_some.mpr ⟨rfl, hne⟩
    refine .relocated src hne (by rw [he]; rfl) ?_ ?_
    · rw [he, AsyncTask.withStatus_submission]
      cases nextPollAt <;> cases hn : nonEmpty note <;>
        simp [relocateValues, advanceValues, ifSome, hid', hn, Assign.apply,
          AsyncTask.submission, AsyncTask.touch, internalTerminal]
    · rw [hadv.reported, assign_reported]
      cases nextPollAt <;> cases hn : nonEmpty note <;>
        simp [relocateValues, ifSome, hid', hn, Assign.ofOutput]

theorem change_of_run {op : DaoOp} (ha : AllowedWrite C t l op)
    (h : op.run now row = .ok (some row')) : Change row row' op := by
  cases op with
  | markSubmitIntent startedAt =>
      obtain ⟨hs, hn, rfl⟩ := cas_eq_some.mp (Except.ok.inj h)
      have hs := List.mem_singleton.mp hs
      rw [foldl_cols]
      exact @Change.claimed _ _ _ (startedAt.getD now) hs (Option.isNone_iff_eq_none.mp hn)
        ((assign_status _ _).trans hs) rfl (assign_reported (by simp [Assign.ofOutput]))
  | markSubmitted upstreamTaskId rawStatus snapshot nextPollAt startedAt =>
      obtain ⟨hs, hn, rfl⟩ := cas_eq_some.mp (Except.ok.inj h)
      rw [List.foldl_cons, foldl_cols]
      refine .submitted (List.mem_singleton.mp hs) (Option.isSome_iff_ne_none.mp hn)
        (assign_status _ _) ?_ ?_
      · rw [assign_cons, assign_submission (by simp [Assign.ofSubmission])]
        rfl
      · rw [assign_cons, assign_cons, assign_cons, assign_reported (by simp [Assign.ofOutput])]
        rfl
  | advance dst expected values => exact change_of_advance ha h
  | setCancelRequested =>
      obtain ⟨hs, -, rfl⟩ := cas_eq_some.mp (Except.ok.inj h)
      rw [foldl_cols]
      exact .flagged hs (assign_status _ _) rfl (assign_reported (by simp [Assign.ofOutput]))
  -- no handler asks for it
  | cancelImmediatelyAfterSubmit => exact ha.elim
  | setResultRef resultRef summary degraded =>
      obtain ⟨-, -, rfl⟩ := cas_eq_some.mp (Except.ok.inj h)
      rw [List.foldl_cons, foldl_cols]
      exact .kept rfl (assign_status _ _) (assign_submission (by simp [Assign.ofSubmission]))
        (assign_reported (by simp [Assign.ofOutput]))
  | scheduleNextPoll nextPollAt =>
      exact kept_of_cas rfl (Except.ok.inj h) (by simp [Assign.ofSubmission, Assign.ofOutput])
  | recordPollResult snapshot rawStatus nextPollAt expected =>
      obtain ⟨hs, -, rfl⟩ := cas_eq_some.mp (Except.ok.inj h)
      rw [foldl_cols]
      refine .recorded hs (assign_status _ _) ?_ ?_
      · rw [assign_submission, AsyncTask.touch_submission]
        cases nextPollAt <;> simp [ifSome, Assign.ofSubmission]
      · rw [assign_append, assign_reported]
        · rfl
        · cases nextPollAt <;> simp [ifSome, Assign.ofOutput]
  | markFailure expected code message retryable nextPollAt snapshot =>
      -- a failure is recorded without a snapshot
      obtain rfl : snapshot = none := ha
      exact kept_of_cas rfl (Except.ok.inj h)
        (by simp [ifSome, Assign.ofSubmission, Assign.ofOutput])
  | enterUnknown code message expected =>
      obtain ⟨rfl, -⟩ := ha
      rw [DaoOp.run] at h
      have hadv := advanced_of_advance h
      obtain ⟨-, src, he⟩ := advance_eq_some h
      refine .doubted (List.mem_singleton.mp (src _ rfl)) (by rw [he]; rfl) (hadv.submission ?_) ?_
      · simp [Assign.ofSubmission]
      · exact hadv.reported.trans (assign_reported (by simp [Assign.ofOutput]))
  | relocateCompensate upstreamTaskId target rawStatus snapshot nextPollAt note =>
      obtain ⟨rfl, rfl, ht⟩ := ha
      exact change_of_relocate ht h
  | leaseDispatch leaseSeconds expected =>
      exact kept_of_cas rfl (Except.ok.inj h) (by simp [Assign.ofSubmission, Assign.ofOutput])
  | releaseSubmitIntent expected nextPollAt decrement code message retryable attributes deadline =>
      obtain ⟨rfl, -⟩ := ha
      obtain ⟨hs, -, rfl⟩ := cas_eq_some.mp (Except.ok.inj h)
      rw [foldl_cols]
      refine .released hs (assign_status _ _) (release_submission _) ?_
      rw [assign_reported, AsyncTask.touch_reported]
      cases decrement <;> cases deadline <;> simp [releaseValues, ifSome, Assign.ofOutput]
  | noteAttribute read attributes =>
      exact kept_of_cas rfl (Except.ok.inj h) (by simp [Assign.ofSubmission, Assign.ofOutput])
  | scheduleTransferRetry nextPollAt attempts =>
      exact kept_of_cas rfl (Except.ok.inj h) (by simp [Assign.ofSubmission, Assign.ofOutput])
  | markResultUnavailable detail =>
      exact kept_of_cas rfl (Except.ok.inj h) (by simp [Assign.ofSubmission, Assign.ofOutput])

def identityColumn : Column Identity where
  get := AsyncTask.identity
  sets := Assign.ofIdentity
  touch _ _ := rfl
  outcome _ _ _ := rfl
  apply row a h := by cases a <;> first | rfl | cases h

/-- No operation but an advance sets a column of the identity. -/
theorem ofIdentity_assigned {op : DaoOp}
    (h : ∀ dst expected values, op ≠ .advance dst expected values) :
    ∀ a ∈ op.assigned now, a.ofIdentity = false := by
  have advanced : ∀ {dst : TaskStatus} {values : List Assign},
      (∀ a ∈ values, a.ofIdentity = false) →
      ∀ a ∈ advanceValues now dst values, a.ofIdentity = false := by
    intro dst values hv a ha
    rcases mem_advanceValues ha with ha | rfl | rfl
    · exact hv a ha
    · rfl
    · rfl
  cases op with
  | advance dst expected values => exact absurd rfl (h _ _ _)
  | enterUnknown code message expected =>
      rw [DaoOp.assigned]
      exact advanced (by simp [Assign.ofIdentity])
  | relocateCompensate upstreamTaskId target rawStatus snapshot nextPollAt note =>
      refine advanced ?_
      simp only [relocateValues, List.forall_mem_append, forall_mem_ifSome]
      split <;> simp [Assign.ofIdentity]
  | recordPollResult snapshot rawStatus nextPollAt expected =>
      simp only [DaoOp.assigned, List.forall_mem_append, forall_mem_ifSome]
      simp [Assign.ofIdentity]
  | markFailure expected code message retryable nextPollAt snapshot =>
      simp only [DaoOp.assigned, List.forall_mem_append, forall_mem_ifSome]
      simp [Assign.ofIdentity]
  | releaseSubmitIntent expected nextPollAt decrement code message retryable attributes deadline =>
      simp only [DaoOp.assigned, releaseValues, List.forall_mem_append, forall_mem_ifSome]
      split <;> simp [Assign.ofIdentity]
  | _ => simp [DaoOp.assigned, Assign.ofIdentity]

/-- The writes the discipline allows leave the identity of the row alone. -/
theorem identity_run {op : DaoOp} (ha : AllowedWrite C t l op)
    (h : op.run now row = .ok (some row')) : row'.identity = row.identity := by
  by_cases hadv : ∃ dst expected values, op = .advance dst expected values
  · obtain ⟨dst, expected, values, rfl⟩ := hadv
    refine (advanced_of_advance h).identity fun a hv => ?_
    cases dst with
    | accepted =>
        obtain ⟨-, ⟨now', rfl⟩, -⟩ := ha
        revert a
        simp [recreateValues, Assign.ofIdentity]
    | upstreamSubmitted => exact ha.elim
    | submitUnknown => exact (ha.2.1 a hv).2
    | succeeded => exact (ha a hv).2
    | timeout => exact (ha a hv).2
    | _ => exact (ha.1 a hv).2
  · exact DaoOp.column_run identityColumn h (ofIdentity_assigned fun dst expected values he =>
      hadv ⟨dst, expected, values, he⟩)

/-! ### What a move changes -/

/-- An event of the pool of handlers. -/
abbrev Happening := Event effects Exn Work

/-- The write that hit, where the event is one. -/
def hit : Happening → Option DaoOp
  | .act _ (.apply op _) (.ok true) => some op
  | _ => none

theorem hit_eq_some {u : ℕ} {o : Op} {r : Except Exn o.Ans} {op : DaoOp}
    (h : hit (.act u o r) = some op) :
    ∃ also, (.act u o r : Happening) = .act u (.apply op also) (.ok true) := by
  unfold hit at h
  split at h
  · rename_i he
    cases he
    cases h
    exact ⟨_, rfl⟩
  · cases h

/-- An operation leaves the row as it was, or is a write that hit. -/
theorem move_cases {w w' : World} {u : ℕ} {o : Op} {γ : Choice} {r : Except Exn o.Ans}
    (ha : Allowed C t l o) (h : respond w o γ = some (r, w')) :
    hit (.act u o r) = none ∧ w'.row = w.row ∨
      ∃ op, hit (.act u o r) = some op ∧ AllowedWrite C t l op ∧ Change w.row w'.row op ∧
        w'.row.identity = w.row.identity := by
  have hr := respond_eq_some h
  by_cases ho : ∃ op also, o = .apply op also
  · obtain ⟨op, also, rfl⟩ := ho
    obtain ⟨x, rfl, hrow⟩ | ⟨rfl, hrow⟩ | ⟨now, rfl, hrun⟩ := reply_apply hr
    · exact .inl ⟨rfl, hrow⟩
    · exact .inl ⟨rfl, hrow⟩
    · exact .inr ⟨op, rfl, ha, change_of_run ha hrun, identity_run ha hrun⟩
  · refine .inl ⟨?_, reply_row hr fun op also he => ho ⟨op, also, he⟩⟩
    cases o with
    | apply op also => exact absurd ⟨op, also, rfl⟩ ho
    | _ => rfl

end AsyncGateway
