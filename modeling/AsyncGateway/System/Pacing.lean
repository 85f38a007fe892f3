import AsyncGateway.System.Retry
import AsyncGateway.System.Rows
import AsyncGateway.System.Terms

/-!
# System — the wait an upstream asks for

A create call that is answered with 429 gives its intent back, due when the answer lets it be.  The
time is kept in `next_poll_at` alone, and only the scheduler looks there: a handler that is started
by a message of its own claims the intent before it.  In a course on which the writes are patient
with a row that waits, no create call leaves before the time is over (`retry_after_kept`).
-/

namespace AsyncGateway

open TaskStatus TaskRuntime
open Interleave

variable {C : Container} {t : ResolvedTemplate}

/-! ### Moves and the clock -/

section Moves

variable {w w' : World} {u : ℕ} {o : Op} {γ : Choice} {r : Except Exn o.Ans}

/-- A write that hits is made at the time of the move. -/
theorem respond_hit {op : DaoOp} (h : respond w o γ = some (r, w'))
    (hh : hit (.act u o r) = some op) : op.run w'.clock w.row = .ok (some w'.row) := by
  obtain ⟨also, he⟩ := hit_eq_some hh
  cases he
  obtain ⟨-, hclock⟩ := respond_clock h
  have hr := respond_eq_some h
  obtain ⟨time, answer⟩ := γ
  cases answer with
  | done =>
      simp only [reply, DaoOp.exec] at hr
      split at hr <;> cases hr
      rw [hclock]
      assumption
  | _ => cases hr

end Moves

theorem clock_le_of_step {G : (gateway C t).Condition} {c c' : Config (gateway C t)}
    (s : Step G c c') : c.world.clock ≤ c'.world.clock := by
  cases s with
  | spawn κ => exact le_rfl
  | act hp hw hg => exact (respond_clock hw).2 ▸ (respond_clock hw).1
  | halt hp => exact le_rfl

/-! ### What an answer asks for -/

/-- The answer is a 429 that asks, where it is read at `at_`, to wait `wait` seconds. -/
structure Limits (C : Container) (response : HttpResponse) (at_ : Time) (wait : Seconds) :
    Prop where
  status : response.statusCode = 429
  header : extractRetryAfter C.toFloat C.parsedate at_ response.retryAfter (.fin 0) = .fin wait

/-- An intent that is given back on the terms of the answer is due when the wait is over, or the
wait was over when it was given back. -/
theorem due_of_asked {response : HttpResponse} {at_ n₁ n₂ next : Time} {wait : Seconds}
    {base : PyFloat} (h : Limits C response at_ wait) (h₁ : at_ ≤ n₁) (h₂ : n₁ ≤ n₂)
    (hnext : later n₂ ((askedDelay C response n₁).orElse base) = .ok next) :
    at_ + wait ≤ next ∨ at_ + wait ≤ n₂ := by
  have header := h.header
  have from_fin : ∀ {q : ℚ}, 0 < q → later n₂ ((PyFloat.fin q).orElse base) = .ok next →
      n₂ + q = next := by
    intro q hq hl
    have hne : PyFloat.fin q ≠ .fin 0 := fun he => hq.ne' (PyFloat.fin.inj he)
    rw [PyFloat.orElse, if_neg hne, later] at hl
    split at hl <;> cases hl
    rfl
  have passed : wait ≤ 0 → at_ + wait ≤ next ∨ at_ + wait ≤ n₂ := fun hw => .inr (by linarith)
  unfold askedDelay extractRetryAfter at hnext
  unfold extractRetryAfter at header
  split at header
  · exact passed (PyFloat.fin.inj header).ge
  · exact passed (PyFloat.fin.inj header).ge
  · rename_i raw hraw hne
    rw [hne] at hnext
    simp only at hnext
    split at header
    · -- a number of seconds
      rename_i x hx
      simp only [hx, header] at hnext
      rcases le_or_gt wait 0 with hw | hw
      · exact passed hw
      · have := from_fin hw hnext
        exact .inl (by linarith)
    · rename_i hx
      simp only [hx] at hnext
      split at header
      · -- a date
        rename_i date hdate
        simp only [hdate] at hnext
        have hwait := PyFloat.fin.inj header
        rcases le_or_gt date n₁ with hd | hd
        · refine .inr ?_
          rw [← hwait]
          rcases max_cases (0 : ℚ) (date - at_) with ⟨he, -⟩ | ⟨he, -⟩ <;> rw [he] <;> linarith
        · rw [max_eq_right (by linarith : (0 : ℚ) ≤ date - n₁)] at hnext
          have := from_fin (by linarith) hnext
          refine .inl ?_
          rw [← hwait, max_eq_right (by linarith : (0 : ℚ) ≤ date - at_)]
          linarith
      · exact passed (PyFloat.fin.inj header).ge

/-! ### Patience with a row that waits -/

/-- The row waits: it is accepted, unclaimed, and due later. -/
def AsyncTask.waits (row : AsyncTask) (now : Time) : Bool :=
  decide (row.status = accepted ∧ row.submitStartedAt = none) &&
    row.nextPollAt.any fun n => decide (now < n)

/-- The write takes no intent, puts nothing in doubt, and sets nothing due before `until_`. -/
def DaoOp.patient (until_ : Time) : DaoOp → Bool
  | .markSubmitIntent _ => false
  | .enterUnknown _ _ _ => false
  | .advance .submitUnknown _ _ => false
  | .scheduleNextPoll next => decide (until_ ≤ next)
  | .releaseSubmitIntent _ next _ _ _ _ _ _ => decide (until_ ≤ next)
  | .recordPollResult _ _ next _ => next.all fun n => decide (until_ ≤ n)
  | .markFailure _ _ _ _ next _ => next.any fun n => decide (until_ ≤ n)
  | _ => true

/-- Until then a create call leaves only while the intent is held, and the writes that hit are
patient with a row that waits. -/
def patience (C : Container) (t : ResolvedTemplate) (until_ : Time) : (gateway C t).Law :=
  fun w e w' => w'.clock < until_ → (isCreate e = true → w.row.submitStartedAt ≠ none) ∧
    ∀ op, hit e = some op → w.row.waits w'.clock = true → op.patient until_ = true

/-- A release of the intent that hit. -/
def isRelease (e : Happening) : Bool :=
  match hit e with
  | some (.releaseSubmitIntent _ _ _ _ _ _ _ _) => true
  | _ => false

theorem hit_of_isRelease {e : Happening} (h : isRelease e = true) :
    ∃ expected next decrement code message retryable attributes deadline,
      hit e = some (.releaseSubmitIntent expected next decrement code message retryable attributes
        deadline) := by
  unfold isRelease at h
  split at h
  · exact ⟨_, _, _, _, _, _, _, _, ‹_›⟩
  · cases h

/-! ### A row that is given back -/

/-- The states a task that is given back can come to without a claim. -/
def givenBack : List TaskStatus := timeout :: afterFailed

/-- Until the time is over the row is unclaimed, and it is closed, failed, or due no earlier. -/
def Guarded (until_ : Time) (w : World) : Prop :=
  w.clock < until_ → w.row.submitStartedAt = none ∧ (w.row.status ∈ givenBack ∨
    w.row.status = accepted ∧ ∃ n, w.row.nextPollAt = some n ∧ until_ ≤ n)

section Guarded

variable {l : Local} {row row' : AsyncTask} {op : DaoOp} {now until_ : Time}

theorem unclaimed_of_change (hn : row.submitStartedAt = none) (h : Change row row' op)
    (hc : ∀ startedAt, op ≠ .markSubmitIntent startedAt) : row'.submitStartedAt = none := by
  have kept : row'.submission = row.submission → row'.submitStartedAt = none := by
    intro hs
    rw [show row'.submitStartedAt = _ from congrArg Submission.submitStartedAt hs]
    exact hn
  cases h with
  | claimed => exact absurd rfl (hc _)
  | submitted src held => exact absurd hn held
  | released src dst submission => exact congrArg Submission.submitStartedAt submission
  | reopened src dst submission => exact congrArg Submission.submitStartedAt submission
  | relocated src given dst submission =>
      exact (congrArg Submission.submitStartedAt submission).trans hn
  | flagged src dst submission =>
      exact (congrArg Submission.submitStartedAt submission).trans hn
  | moved edge src dst closed submission => exact kept submission
  | doubted src dst submission => exact kept submission
  | recorded src dst submission => exact kept submission
  | kept still dst submission => exact kept submission

/-- A write leaves a task that is closed or failed closed or failed. -/
theorem givenBack_of_run (hs : row.status ∈ givenBack) (ha : AllowedWrite C t l op)
    (h : op.run now row = .ok (some row')) (hc : Change row row' op) :
    row'.status ∈ givenBack := by
  rcases List.mem_cons.mp hs with hs | hs
  · rcases DaoOp.status_run h with he | he
    · rw [he, hs]
      decide
    · rw [hs] at he
      cases he
  · exact List.mem_cons_of_mem _ (afterFailed_of_change hs ha hc).1

/-- A patient write leaves a row that waits due no earlier, or closes it. -/
theorem due_of_patient {n : Time} (hs : row.status = accepted) (hn : row.submitStartedAt = none)
    (hnext : row.nextPollAt = some n) (hnow : now < n) (hle : until_ ≤ n)
    (ha : AllowedWrite C t l op) (h : op.run now row = .ok (some row'))
    (hp : op.patient until_ = true) :
    row'.status ∈ givenBack ∨
      row'.status = accepted ∧ ∃ n', row'.nextPollAt = some n' ∧ until_ ≤ n' := by
  -- a write of columns leaves the state, and the time unless it sets one
  have due : ∀ {expected : List TaskStatus} {values : List Assign} {extraWhere : Bool},
      cas now row expected (cols values) extraWhere = some row' →
      (∀ row₀ : AsyncTask, row₀.nextPollAt = some n →
        ∃ n', (assign row₀ values).nextPollAt = some n' ∧ until_ ≤ n') →
      row'.status ∈ givenBack ∨
        row'.status = accepted ∧ ∃ n', row'.nextPollAt = some n' ∧ until_ ≤ n' := by
    intro expected values extraWhere hcas hv
    obtain ⟨-, -, rfl⟩ := cas_eq_some.mp hcas
    rw [foldl_cols]
    exact .inr ⟨(assign_status _ _).trans hs, hv _ hnext⟩
  have closes : ∀ {dst : TaskStatus} {expected values},
      advance now row dst expected values = .ok (some row') →
      dst ∉ [upstreamSubmitted, submitUnknown] → row'.status ∈ givenBack ∨
        row'.status = accepted ∧ ∃ n', row'.nextPollAt = some n' ∧ until_ ≤ n' := by
    intro dst expected values hadv hdst
    obtain ⟨edge, -, rfl⟩ := advance_eq_some hadv
    rw [hs] at edge
    rw [AsyncTask.withStatus_status]
    refine .inl ?_
    clear hadv
    revert edge hdst
    cases dst <;> decide
  have never : ∀ {expected : List TaskStatus} {values : List Write} {extraWhere : Bool},
      cas now row expected values extraWhere = some row' → accepted ∉ expected → False :=
    fun hcas hne => hne (hs ▸ (cas_eq_some.mp hcas).1)
  cases op with
  | markSubmitIntent startedAt => cases hp
  | enterUnknown code message expected => cases hp
  | markSubmitted upstreamTaskId rawStatus snapshot nextPollAt startedAt =>
      have := (cas_eq_some.mp (Except.ok.inj h)).2.1
      rw [hn] at this
      cases this
  | advance dst expected values =>
      refine closes h ?_
      cases dst with
      | upstreamSubmitted => exact ha.elim
      | submitUnknown => cases hp
      | _ => decide
  | setCancelRequested => exact due (Except.ok.inj h) fun row₀ h₀ => ⟨n, h₀, hle⟩
  | cancelImmediatelyAfterSubmit => exact ha.elim
  | setResultRef resultRef summary degraded =>
      exact (never (Except.ok.inj h) (by decide)).elim
  | scheduleNextPoll next =>
      refine due (Except.ok.inj h) fun row₀ _ => ⟨next, ?_, of_decide_eq_true hp⟩
      simp [Assign.apply]
  | recordPollResult snapshot rawStatus next expected =>
      refine due (Except.ok.inj h) fun row₀ h₀ => ?_
      cases next with
      | none => exact ⟨n, by simpa [ifSome, Assign.apply] using h₀, hle⟩
      | some next => exact ⟨next, by simp [ifSome, Assign.apply], of_decide_eq_true hp⟩
  | markFailure expected code message retryable next snapshot =>
      refine due (Except.ok.inj h) fun row₀ h₀ => ?_
      obtain rfl : snapshot = none := ha
      cases next with
      | none => cases hp
      | some next => exact ⟨next, by simp [ifSome, Assign.apply], of_decide_eq_true hp⟩
  | relocateCompensate upstreamTaskId target rawStatus snapshot next note =>
      rw [DaoOp.run] at h
      obtain ⟨-, src, -⟩ := advance_eq_some h
      have := List.mem_singleton.mp (src _ rfl)
      rw [hs] at this
      cases this
  | leaseDispatch leaseSeconds expected =>
      have hdue := (cas_eq_some.mp (Except.ok.inj h)).2.1
      rw [hnext] at hdue
      exact absurd (of_decide_eq_true hdue) (not_le.mpr hnow)
  | releaseSubmitIntent expected next decrement code message retryable attributes deadline =>
      obtain ⟨rfl, -⟩ := ha
      exact due (Except.ok.inj h) fun row₀ _ =>
        ⟨next, (release_timing row₀).2, of_decide_eq_true hp⟩
  | noteAttribute read attributes => exact due (Except.ok.inj h) fun row₀ h₀ => ⟨n, h₀, hle⟩
  | scheduleTransferRetry next attempts => exact (never (Except.ok.inj h) (by decide)).elim
  | markResultUnavailable detail => exact (never (Except.ok.inj h) (by decide)).elim

/-- Patience keeps a row that is given back as it is. -/
theorem Guarded.act {w w' : World} {u : ℕ} {o : Op} {γ : Choice} {r : Except Exn o.Ans}
    (h : Guarded until_ w) (ha : Allowed C t l o) (hw : respond w o γ = some (r, w'))
    (hp : patience C t until_ w (.act u o r) w') : Guarded until_ w' := by
  intro hlt
  obtain ⟨hle, hclock⟩ := respond_clock hw
  obtain ⟨hn, hs⟩ := h (lt_of_le_of_lt hle (hclock ▸ hlt))
  obtain ⟨-, hrow⟩ | ⟨op, hh, hop, hchange, -⟩ := move_cases (u := u) ha hw
  · rw [hrow]
    exact ⟨hn, hs⟩
  · have hrun := respond_hit hw hh
    rcases hs with hs | ⟨hs, n, hnext, hwait⟩
    · refine ⟨unclaimed_of_change hn hchange ?_, .inl (givenBack_of_run hs hop hrun hchange)⟩
      rintro startedAt rfl
      cases hchange with
      | claimed src => exact absurd (src ▸ hs) (by decide)
      | kept still => cases still
    · have hnow : w'.clock < n := lt_of_lt_of_le hlt hwait
      have patient := (hp hlt).2 op hh (by simp [AsyncTask.waits, hs, hn, hnext, hnow])
      refine ⟨unclaimed_of_change hn hchange ?_,
        due_of_patient hs hn hnext hnow hwait hop hrun patient⟩
      rintro startedAt rfl
      cases patient

end Guarded

/-! ### The handler that was answered -/

/-- What the handlers keep to, in their discipline and on the terms of a wait. -/
abbrev paced (C : Container) (t : ResolvedTemplate) : Protocol effects Exn Work :=
  (discipline C t).both (terms C)

theorem follows_paced (κ : Work) : Follows (paced C t) (κ.body C t) ((paced C t).start κ) :=
  (follows_body κ).both (keeps_terms κ)

theorem keeps_paced {G : (gateway C t).Condition} {w : World} {c : Config (gateway C t)}
    (h : Run G ((gateway C t).initial w) c) : Keeps (paced C t) c :=
  Keeps.run follows_paced (Keeps.initial w) h

/-- The readings of the clock, the newest first, none before `from_` or after `now`. -/
structure Forward (readings : List Time) (from_ now : Time) : Prop where
  sorted : readings.Pairwise (· ≥ ·)
  within : ∀ n ∈ readings, from_ ≤ n ∧ n ≤ now

theorem Forward.later {readings : List Time} {from_ now now' : Time}
    (h : Forward readings from_ now) (hle : now ≤ now') : Forward readings from_ now' :=
  ⟨h.sorted, fun n hn => (h.within n hn).imp_right fun h => h.trans hle⟩

theorem Forward.cons {readings : List Time} {from_ now n : Time} (h : Forward readings from_ now)
    (hfrom : from_ ≤ now) (hle : now ≤ n) : Forward (n :: readings) from_ n := by
  refine ⟨List.pairwise_cons.mpr ⟨fun m hm => (h.within m hm).2.trans hle, h.sorted⟩, ?_⟩
  rintro m (_ | ⟨_, hm⟩)
  · exact ⟨hfrom.trans hle, le_rfl⟩
  · exact ((h.later hle).within m hm)

/-- A handler whose create call was answered with `response`: it still has the answer, or is past
its submission. -/
def Owes (response : HttpResponse) (from_ now : Time) (l : Local) (m : Standing) : Prop :=
  l.stage.side = .after ∨ l.stage = .created (.ok response) ∧ m.answer = some response ∧
    Forward m.readings from_ now

section Owes

variable {response : HttpResponse} {from_ : Time} {l : Local} {m : Standing}

theorem Owes.later {now now' : Time} (h : Owes response from_ now l m) (hle : now ≤ now') :
    Owes response from_ now' l m :=
  h.imp id fun ⟨hs, ha, hr⟩ => ⟨hs, ha, hr.later hle⟩

/-- Who is past its submission stays there. -/
theorem after_next {o : Op} {r : Except Exn o.Ans} (ha : Allowed C t l o)
    (hs : l.stage.side = .after) : (l.next o r).stage.side = .after := by
  have turn := turn_cases (u := 0) (r := r) ha
  generalize (l.next o r).stage = s at turn
  generalize (.act 0 o r : Happening) = e at turn
  cases turn with
  | stay quiet => exact hs
  | claim hfree | create hfree | answer hfree | hear hfree hl => rw [hfree] at hs; cases hs
  | inquire hq => rw [hq.1] at hs; cases hs
  | submitted _ _ => split <;> rfl
  | _ => rfl

/-- Who has an answer keeps it, or is past its submission. -/
theorem created_next {o : Op} {r : Except Exn o.Ans} (ha : Allowed C t l o)
    (hs : l.stage = .created (.ok response)) :
    (l.next o r).stage.side = .after ∨ (l.next o r).stage = .created (.ok response) := by
  have turn := turn_cases (u := 0) (r := r) ha
  generalize (l.next o r).stage = s at turn
  generalize (.act 0 o r : Happening) = e at turn
  cases turn with
  | stay quiet => exact .inr hs
  | claim hfree | create hfree | answer hfree | hear hfree hl => rw [hfree] at hs; cases hs
  | inquire hq => rw [hq.1] at hs; cases hs
  | submitted _ _ => left; split <;> rfl
  | _ => exact .inl rfl

/-- An operation leaves the answer, and adds a reading where it reads the clock. -/
theorem standing_next {o : Op} {r : Except Exn o.Ans} (ho : o ≠ .recv .create) :
    (m.next o r).answer = m.answer ∧ ((m.next o r).readings = m.readings ∨
      ∃ n, (.act 0 o r : Happening) = .act 0 .now (.ok n) ∧
        (m.next o r).readings = n :: m.readings) := by
  cases o with
  | now =>
      cases r with
      | ok n => exact ⟨rfl, .inr ⟨n, rfl, rfl⟩⟩
      | error x => exact ⟨rfl, .inl rfl⟩
  | recv purpose => cases purpose <;> first | exact absurd rfl ho | exact ⟨rfl, .inl rfl⟩
  | _ => cases r <;> exact ⟨rfl, .inl rfl⟩

theorem Owes.act {w w' : World} {o : Op} {γ : Choice} {r : Except Exn o.Ans}
    (h : Owes response from_ w.clock l m) (hfrom : from_ ≤ w.clock) (ha : Allowed C t l o)
    (hw : respond w o γ = some (r, w')) :
    Owes response from_ w'.clock (l.next o r) (m.next o r) := by
  have hle : w.clock ≤ w'.clock := (respond_clock hw).2 ▸ (respond_clock hw).1
  rcases h with hs | ⟨hs, hm, hr⟩
  · exact .inl (after_next ha hs)
  · refine (created_next ha hs).imp id fun hs' => ?_
    have ho : o ≠ .recv .create := by
      rintro rfl
      rw [show l.stage = .creating from ha] at hs
      cases hs
    obtain ⟨hanswer, he | ⟨n, he, hreadings⟩⟩ := standing_next (m := m) (r := r) ho
    · exact ⟨hs', hanswer.trans hm, he ▸ hr.later hle⟩
    · cases he
      obtain rfl := respond_now hw
      exact ⟨hs', hanswer.trans hm, hreadings ▸ hr.cons hfrom hle⟩

/-- What another handler does leaves the answer of this one. -/
theorem Owes.aside {e : Happening} {l : Log} {u : ℕ} {now : Time} (hu : u ≠ e.thread)
    (h : Owes response from_ now (phase C t l u) (standing C t l u)) :
    Owes response from_ now (phase C t (e :: l) u) (standing C t (e :: l) u) := by
  rw [phase, standing, Protocol.after_of_ne hu, Protocol.after_of_ne hu]
  exact h

end Owes

/-! ### The wait is kept -/

/-- The create call of handler `u` was just answered, and asks to wait `wait` seconds. -/
def Limited (c : Config (gateway C t)) (u : ℕ) (wait : Seconds) : Prop :=
  ∃ response l, c.log = .act u (.recv .create) (.ok (.ok response)) :: l ∧
    Limits C response c.world.clock wait

/-- Since `c` handler `u` gave its intent back, and then a create call left, just now. -/
def CreatesAfterRelease (c c' : Config (gateway C t)) (u : ℕ) : Prop :=
  ∃ v request r new, c'.log = .act v (.send .create request) r :: (new ++ c.log) ∧
    ∃ e ∈ new, e.thread = u ∧ isRelease e = true

/-- What holds from the answer on, with `before` the log up to it. -/
structure Paced (C : Container) (t : ResolvedTemplate) (u : ℕ) (response : HttpResponse)
    (from_ : Time) (wait : Seconds) (before : Log) (w : World) (l : Log) : Prop where
  clock : from_ ≤ w.clock
  owes : Owes response from_ w.clock (phase C t l u) (standing C t l u)
  grown : ∃ new, l = new ++ before
  guarded : ∀ new, l = new ++ before → (∃ e ∈ new, e.thread = u ∧ isRelease e = true) →
    Guarded (from_ + wait) w

section Paced

variable {u : ℕ} {response : HttpResponse} {from_ : Time} {wait : Seconds} {before : Log}
  {w w' : World} {l : Log}

/-- A release on the terms of the answer leaves the row guarded. -/
theorem guarded_of_release {o : Op} {γ : Choice} {r : Except Exn o.Ans} {h : Local} {m : Standing}
    (howes : Owes response from_ w.clock h m) (hlimits : Limits C response from_ wait)
    (ha : Allowed C t h o) (hm : m.Allows C o) (hw : respond w o γ = some (r, w'))
    (he : isRelease (.act u o r) = true) : Guarded (from_ + wait) w' := by
  intro hlt
  obtain ⟨expected, next, decrement, code, message, retryable, attributes, deadline, hh⟩ :=
    hit_of_isRelease he
  have hrun := respond_hit hw hh
  obtain ⟨also, heq⟩ := hit_eq_some hh
  cases heq
  have hop : AllowedWrite C t h (.releaseSubmitIntent expected next decrement code message
    retryable attributes deadline) := ha
  obtain ⟨rfl, hrel⟩ := hop
  -- it has the answer: who only claimed has none, and who is past its submission no intent
  obtain ⟨hs, hans, hread⟩ : h.stage = .created (.ok response) ∧ m.answer = some response ∧
      Forward m.readings from_ w.clock := by
    rcases howes with hafter | hc
    · obtain ⟨-, -, hs⟩ | ⟨-, r, c, hs, -⟩ := hrel <;> rw [hs] at hafter <;> cases hafter
    · exact hc
  obtain rfl : expected = submitSources := by
    obtain ⟨-, -, hc⟩ | ⟨he, -⟩ := hrel
    · rw [hs] at hc
      cases hc
    · exact he
  obtain ⟨n₁, n₂, base, hreadings, hnext⟩ := hm.1 response hans hlimits.status
  rw [hreadings] at hread
  have h₁ := (hread.within n₁ (by simp)).1
  have h₂ : n₂ ≥ n₁ := (List.pairwise_cons.mp hread.sorted).1 n₁ (by simp)
  have hnow := (hread.within n₂ (by simp)).2
  have hclock : w.clock ≤ w'.clock := (respond_clock hw).2 ▸ (respond_clock hw).1
  obtain ⟨hsrc, -, hrow⟩ := cas_eq_some.mp (Except.ok.inj hrun)
  rw [foldl_cols] at hrow
  have hstatus : w'.row.status = w.row.status := by
    rw [hrow]
    exact assign_status _ _
  refine ⟨?_, ?_⟩
  · rw [hrow]
    exact congrArg Submission.submitStartedAt (release_submission _)
  · rcases due_of_asked hlimits h₁ h₂ hnext with hdue | hover
    · rw [hstatus]
      simp only [submitSources, List.mem_cons, List.not_mem_nil, or_false] at hsrc
      rcases hsrc with hsrc | hsrc
      · refine .inr ⟨hsrc, next, ?_, hdue⟩
        rw [hrow]
        exact (release_timing _).2
      · exact .inl (by rw [hsrc]; decide)
    · linarith

theorem Paced.grow {e : Happening} (h : Paced C t u response from_ wait before w l)
    (hclock : w.clock ≤ w'.clock)
    (howes : Owes response from_ w'.clock (phase C t (e :: l) u) (standing C t (e :: l) u))
    (hrelease : e.thread = u → isRelease e = true → Guarded (from_ + wait) w')
    (hkeep : Guarded (from_ + wait) w → Guarded (from_ + wait) w') :
    Paced C t u response from_ wait before w' (e :: l) := by
  obtain ⟨new, hnew⟩ := h.grown
  refine ⟨h.clock.trans hclock, howes, ⟨e :: new, by rw [hnew]; rfl⟩, ?_⟩
  intro new' hnew' ⟨e', hmem, hu, he'⟩
  obtain rfl : e :: new = new' :=
    List.append_cancel_right (by rw [← hnew', hnew, List.cons_append])
  rcases List.mem_cons.mp hmem with rfl | hmem
  · exact hrelease hu he'
  · exact hkeep (h.guarded new hnew ⟨e', hmem, hu, he'⟩)

/-- What the patient moves of every handler preserve. -/
theorem Paced.act {v : ℕ} {o : Op} {γ : Choice} {r : Except Exn o.Ans}
    (h : Paced C t u response from_ wait before w l) (hlimits : Limits C response from_ wait)
    (ha : Allowed C t (phase C t l v) o) (hm : (standing C t l v).Allows C o)
    (hw : respond w o γ = some (r, w'))
    (hp : patience C t (from_ + wait) w (.act v o r) w') :
    Paced C t u response from_ wait before w' (.act v o r :: l) := by
  have hle : w.clock ≤ w'.clock := (respond_clock hw).2 ▸ (respond_clock hw).1
  refine h.grow hle ?_ ?_ fun hg => hg.act ha hw hp
  · by_cases hv : u = v
    · subst hv
      rw [show phase C t (.act u o r :: l) u = (phase C t l u).next o r from if_pos rfl,
        show standing C t (.act u o r :: l) u = (standing C t l u).next o r from if_pos rfl]
      exact h.owes.act h.clock ha hw
    · exact (h.owes.aside hv).later hle
  · rintro rfl he
    exact guarded_of_release h.owes hlimits ha hm hw he

end Paced

/-- When the answer comes, its handler has it. -/
theorem Paced.of_limited {c : Config (gateway C t)} {u : ℕ} {response : HttpResponse} {l : Log}
    (hlog : c.log = .act u (.recv .create) (.ok (.ok response)) :: l) (wait : Seconds) :
    Paced C t u response c.world.clock wait c.log c.world c.log := by
  refine ⟨le_rfl, .inr ?_, ⟨[], rfl⟩, ?_⟩
  · rw [hlog]
    refine ⟨congrArg Local.stage (if_pos rfl), congrArg Standing.answer (if_pos rfl), ?_⟩
    have hnone :
        (standing C t (.act u (.recv .create) (.ok (.ok response)) :: l) u).readings = [] :=
      congrArg Standing.readings (if_pos rfl)
    rw [hnone]
    exact ⟨.nil, fun n hn => absurd hn List.not_mem_nil⟩
  · rintro new hnew ⟨e, he, -⟩
    rw [List.self_eq_append_left.mp hnew] at he
    cases he

/-- A patient course from the answer on keeps the wait. -/
theorem Paced.course {w : World} {c c' : Config (gateway C t)} {u : ℕ} {response : HttpResponse}
    {wait : Seconds} {before : Log} (h₀ : Run (gateway C t).anything ((gateway C t).initial w) c)
    (hlog : c.log = .act u (.recv .create) (.ok (.ok response)) :: before)
    (hlimits : Limits C response c.world.clock wait)
    (h : Course (patience C t (c.world.clock + wait)) c c') :
    Paced C t u response c.world.clock wait c.log c'.world c'.log := by
  -- the name of the handler is taken
  have named : ∀ {l : Log} {v : ℕ}, (∃ new, l = new ++ c.log) → (∀ e ∈ l, e.thread ≠ v) →
      u ≠ v := by
    rintro _ v ⟨new, rfl⟩ hv
    exact hv (.act u (.recv .create) (.ok (.ok response))) (by simp [hlog])
  refine Course.invariant (P := paced C t) (Paced C t u response c.world.clock wait c.log)
    follows_paced (keeps_paced h₀) (.of_limited hlog wait) ?_ ?_ ?_ h
  · intro w l v κ hv hl
    have hne := named hl.grown hv
    exact hl.grow le_rfl (hl.owes.aside hne) (fun hu => absurd hu.symm hne) id
  · intro w l v o γ r w' hl ha hw hp
    have ha : (paced C t).allows ((discipline C t).after l v, (terms C).after l v) o := by
      rwa [Protocol.after_both] at ha
    exact hl.act hlimits ha.1 ha.2 hw hp
  · intro w l v hl
    refine hl.grow le_rfl ?_ (fun _ he => nomatch he) id
    by_cases hv : u = v
    · exact .inl (by rw [hv, phase_halt, if_pos rfl]; rfl)
    · exact hl.owes.aside hv

/-- **`Retry-After` is respected by creates.**  After a create call was answered with 429, which
asks to wait, and its handler gave the intent back: on every course whose writes are patient with a
row that waits, no create call leaves before the time is over. -/
theorem retry_after_kept {w : World} {c₁ c₂ : Config (gateway C t)} {u : ℕ} {wait : Seconds}
    (h₁ : Run (gateway C t).anything ((gateway C t).initial w) c₁) (hu : Limited c₁ u wait)
    (h : Course (patience C t (c₁.world.clock + wait)) c₁ c₂) (hc : CreatesAfterRelease c₁ c₂ u) :
    c₁.world.clock + wait ≤ c₂.world.clock := by
  obtain ⟨response, before, hlog, hlimits⟩ := hu
  obtain ⟨v, request, r, new, hlog₂, hrelease⟩ := hc
  -- the create call is the last move; before it, the row is guarded
  cases h with
  | refl =>
      have := congrArg List.length hlog₂
      simp only [List.length_cons, List.length_append] at this
      omega
  | @more c' _ e hcourse s he hpatient =>
      rw [he] at hlog₂
      obtain ⟨rfl, hlog'⟩ := List.cons.inj hlog₂
      have paced := Paced.course h₁ hlog hlimits hcourse
      by_contra hlt
      have hlt := not_le.mp hlt
      have hguard := paced.guarded new hlog' hrelease
      exact (hpatient hlt).1 rfl (hguard (lt_of_le_of_lt (clock_le_of_step s) hlt)).1

/-! ### A rate-limited gateway to run -/

section Sample

/-- The sample gateway, where a header of `60` or of `600` is read. -/
def limitingContainer : Container :=
  { sampleContainer sampleTemplate with
    toFloat := fun raw =>
      if raw = "60" then some (.fin 60)
      else if raw = "600" ∨ raw = "600.0" then some (.fin 600)
      else none }

abbrev limiting : Machine effects Exn := gateway limitingContainer sampleTemplate

/-- Handler `u` goes on, answered with the replies, all at one time. -/
def goesOnLimited (u : ℕ) (time : Time) (replies : List Reply) : List (Move limiting) :=
  replies.map fun reply => .act u ⟨time, reply⟩

/-- Handler `u` submits the task, and its create call leaves. -/
def createsLimited (u : ℕ) (time : Time) : List (Move limiting) :=
  .spawn .submitUpstream :: goesOnLimited u time
    [.done, .text (some "key"), .slot ⟨true, none⟩, .done, .text none, .done]

/-- The create call of handler 0 is answered with 429 and `Retry-After: 60`. -/
def answeredLimited : List (Move limiting) :=
  createsLimited 0 0 ++
    goesOnLimited 0 0 [.upstream (.ok { statusCode := 429, retryAfter := some "60" })]

/-- Handler 0 gives its intent back, and a second message is handled at the given time. -/
def createsAgain (time : Time) : List (Move limiting) :=
  goesOnLimited 0 0 [.done, .rat 5, .done, .done, .done] ++ createsLimited 1 time

def limitedStart : Config limiting := limiting.initial ⟨sampleRow, 0⟩

/-- Whether the create call of handler `u` was just answered, and asks to wait. -/
def limitedCheck (c : Config limiting) (u : ℕ) (wait : Seconds) : Bool :=
  match c.log with
  | .act v (.recv .create) (.ok (.ok response)) :: _ =>
      decide (v = u ∧ response.statusCode = 429 ∧ extractRetryAfter limitingContainer.toFloat
        limitingContainer.parsedate c.world.clock response.retryAfter (.fin 0) = .fin wait)
  | _ => false

theorem limited_of_check {c : Config limiting} {u : ℕ} {wait : Seconds}
    (h : limitedCheck c u wait = true) : Limited c u wait := by
  unfold limitedCheck at h
  split at h
  · rename_i v response l hlog
    obtain ⟨rfl, hstatus, hheader⟩ := of_decide_eq_true h
    exact ⟨response, l, hlog, hstatus, hheader⟩
  · cases h

/-- Whether a create call just left, and handler `u` gave its intent back before, among the events
that are new. -/
def createsCheck (new : Log) (u : ℕ) : Bool :=
  match new with
  | .act _ (.send .create _) _ :: new => new.any fun e => decide (e.thread = u) && isRelease e
  | _ => false

theorem creates_of_check {c c' : Config limiting} {u : ℕ} (h : Run limiting.anything c c')
    (hc : createsCheck (c'.log.take (c'.log.length - c.log.length)) u = true) :
    CreatesAfterRelease c c' u := by
  have hnew := h.log_take
  revert hc hnew
  generalize c'.log.take (c'.log.length - c.log.length) = new
  intro hc hnew
  unfold createsCheck at hc
  split at hc
  · rename_i v request r new
    obtain ⟨e, he, hr⟩ := List.any_eq_true.mp hc
    simp only [Bool.and_eq_true, decide_eq_true_eq] at hr
    exact ⟨v, request, r, new, hnew, e, he, hr⟩
  · cases hc

/-- The check of `patience`. -/
def patienceCheck (until_ : Time) (w : World) (e : Happening) (w' : World) : Bool :=
  decide (until_ ≤ w'.clock) || (!isCreate e || w.row.submitStartedAt.isSome) &&
    (hit e).all fun op => !w.row.waits w'.clock || op.patient until_

theorem patience_of_check {until_ : Time} {w w' : World} {e : Happening}
    (h : patienceCheck until_ w e w' = true) : patience C t until_ w e w' := by
  intro hlt
  rcases Bool.or_eq_true_iff.mp h with hle | h
  · exact absurd (of_decide_eq_true hle) (not_le.mpr hlt)
  · obtain ⟨hc, hw⟩ := Bool.and_eq_true_iff.mp h
    refine ⟨fun he => ?_, fun op hh hwaits => ?_⟩
    · simpa [he, Option.isSome_iff_ne_none] using hc
    · simpa [hh, hwaits] using hw

theorem retry_after_ignored :
    ∃ c₁ c₂ : Config limiting, ∃ u wait, Run limiting.anything limitedStart c₁ ∧
      Limited c₁ u wait ∧ Run limiting.anything c₁ c₂ ∧ CreatesAfterRelease c₁ c₂ u ∧
        c₂.world.clock < c₁.world.clock + wait := by
  have h : ((limitedStart.exec (fun _ _ _ _ _ => true) answeredLimited).any fun c₁ =>
      (c₁.exec (fun _ _ _ _ _ => true) (createsAgain 1)).any fun c₂ =>
        limitedCheck c₁ 0 60 && createsCheck (c₂.log.take (c₂.log.length - c₁.log.length)) 0 &&
          decide (c₂.world.clock < c₁.world.clock + 60)) = true := by decide +kernel
  obtain ⟨c₁, r₁, h⟩ := Run.of_any_exec (fun _ _ _ _ _ _ => trivial) h
  obtain ⟨c₂, r₂, h⟩ := Run.of_any_exec (fun _ _ _ _ _ _ => trivial) h
  simp only [Bool.and_eq_true, decide_eq_true_eq] at h
  exact ⟨c₁, c₂, 0, 60, r₁, limited_of_check h.1.1, r₂, creates_of_check r₂ h.1.2, h.2⟩

theorem retry_after_kept_sample :
    ∃ c₁ c₂ : Config limiting, Limited c₁ 0 60 ∧ CreatesAfterRelease c₁ c₂ 0 ∧
      c₁.world.clock + 60 ≤ c₂.world.clock := by
  have h : ((limitedStart.exec (fun _ _ _ _ _ => true) answeredLimited).any fun c₁ =>
      (c₁.course (patienceCheck (c₁.world.clock + 60)) (createsAgain 60)).any fun c₂ =>
        limitedCheck c₁ 0 60 &&
          createsCheck (c₂.log.take (c₂.log.length - c₁.log.length)) 0) = true := by
    decide +kernel
  obtain ⟨c₁, r₁, h⟩ := Run.of_any_exec (fun _ _ _ _ _ _ => trivial) h
  obtain ⟨c₂, r₂, h⟩ := Course.of_any_course (fun _ _ _ => patience_of_check) h
  obtain ⟨hcheck, hcreates⟩ := Bool.and_eq_true_iff.mp h
  have hl := limited_of_check hcheck
  have hc := creates_of_check r₂.run hcreates
  exact ⟨c₁, c₂, hl, hc, retry_after_kept r₁ hl r₂ hc⟩

end Sample

end AsyncGateway
