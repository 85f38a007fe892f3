import AsyncGateway.System.Ledger

/-!
# System — the attempts of a task

The column `attempts` counts the claims of the intent less the attempts given back
(`submission_accounting`), and bounds the create calls that count, as long as a task is opened again
only below its budget (`attempt_budget`).
-/

namespace AsyncGateway

open TaskStatus
open Interleave

variable {C : Container} {t : ResolvedTemplate}

/-! ### The account -/

/-- Every claim of the log found the intent cleared. -/
def Spaced (l : Log) : Prop := ∀ l₁ e l₂, l = l₁ ++ e :: l₂ → isClaim e = true → ¬ held l₂

/-- The row keeps the account of the log. -/
structure Account (w : World) (l : Log) : Prop where
  attempts : w.row.attempts + (refunders l).length = (claimers l).length
  intent : held l → w.row.submitStartedAt ≠ none
  spaced : Spaced l

theorem Spaced.cons {l : Log} {e : Happening} (h : Spaced l) (he : isClaim e = true → ¬ held l) :
    Spaced (e :: l) := by
  rintro (- | ⟨x, l₁⟩) e' l₂ heq hc
  · obtain ⟨rfl, rfl⟩ := List.cons.inj heq
    exact he hc
  · obtain ⟨-, heq⟩ := List.cons.inj heq
    exact h l₁ e' l₂ heq hc

/-- What is no claim and no refund, and leaves attempts and intent, leaves the account. -/
theorem Account.quiet {w w' : World} {l : Log} {e : Happening} (h : Account w l)
    (hc : isClaim e = false) (hr : isRefund e = false) (ha : w'.row.attempts = w.row.attempts)
    (hi : w'.row.submitStartedAt = w.row.submitStartedAt) : Account w' (e :: l) where
  attempts := by
    rw [refunders, claimers, doers_cons, doers_cons, hc, hr, ha]
    exact h.attempts
  intent hh := by
    rw [hi]
    exact h.intent ((hh.resolve_left (by simp [hc])).2)
  spaced := h.spaced.cons (by simp [hc])

theorem Account.act {w w' : World} {l : Log} {u : ℕ} {o : Op} {γ : Choice} {r : Except Exn o.Ans}
    (hl : Ledger C t l) (h : Account w l) (ha : Allowed C t (phase C t l u) o)
    (hw : respond w o γ = some (r, w')) : Account w' (.act u o r :: l) := by
  obtain ⟨hh, hrow⟩ | ⟨op, hh, -, hchange, -⟩ := move_cases (u := u) ha hw
  · exact h.quiet (by simp [isClaim, hh]) (by simp [isRefund, hh]) (by rw [hrow]) (by rw [hrow])
  · have hl' := hl.act (r := r) ha
    have same : isClaim (.act u o r) = false → isRefund (.act u o r) = false →
        w'.row.submission.attempts = w.row.submission.attempts →
        w'.row.submission.submitStartedAt = w.row.submission.submitStartedAt →
        Account w' (.act u o r :: l) := h.quiet
    cases hchange with
    | claimed src unclaimed dst submission reported =>
        have hc : isClaim (.act u o r) = true := by simp [isClaim, hh]
        have hr : isRefund (.act u o r) = false := by simp [isRefund, hh]
        have hattempts : w'.row.attempts = w.row.attempts + 1 :=
          congrArg Submission.attempts submission
        have hstarted : w'.row.submitStartedAt = some _ :=
          congrArg Submission.submitStartedAt submission
        refine ⟨?_, fun _ => by simp [hstarted], h.spaced.cons fun _ hheld => ?_⟩
        · -- the claim and the attempt are counted together
          have hacc := h.attempts
          simp only [refunders, claimers, length_doers_cons, hc, hr, if_true,
            Bool.false_eq_true, if_false] at hacc ⊢
          omega
        · exact h.intent hheld unclaimed
    | @released _ _ decrement _ _ _ _ _ src dst submission reported =>
        have hc : isClaim (.act u o r) = false := by simp [isClaim, hh]
        have hx : isClear (.act u o r) = true := by simp [isClear, hh]
        have hr : isRefund (.act u o r) = decrement := by simp [isRefund, hh]
        have hattempts : w'.row.attempts = if decrement then w.row.attempts - 1 else w.row.attempts :=
          congrArg Submission.attempts submission
        refine ⟨?_, fun hheld => ?_, h.spaced.cons (by simp [hc])⟩
        · -- a refund is of a claim, so there is one to take back
          have hle := (hl'.refunds.subperm hl'.refunders_claimed).length_le
          have hacc := h.attempts
          simp only [refunders, claimers, length_doers_cons, hc, hr] at hle hacc ⊢
          rw [hattempts]
          cases decrement <;> simp only [Bool.false_eq_true, if_true, if_false] at hle ⊢ <;> omega
        · exact absurd hheld (by simp [held, hc, hx])
    | reopened src dst submission reported =>
        have hc : isClaim (.act u o r) = false := by simp [isClaim, hh]
        have hx : isClear (.act u o r) = true := by simp [isClear, hh]
        have hr : isRefund (.act u o r) = false := by simp [isRefund, hh]
        have hattempts : w'.row.attempts = w.row.attempts := congrArg Submission.attempts submission
        refine ⟨?_, fun hheld => ?_, h.spaced.cons (by simp [hc])⟩
        · have hacc := h.attempts
          simp only [refunders, claimers, length_doers_cons, hc, hr, Bool.false_eq_true,
            if_false] at hacc ⊢
          omega
        · exact absurd hheld (by simp [held, hc, hx])
    | moved edge src dst closed submission reported =>
        exact same (by simp [isClaim, hh]) (by simp [isRefund, hh]) (by rw [submission])
          (by rw [submission])
    | kept still dst submission reported =>
        refine same (isClaim_of_still hh still) ?_ (by rw [submission]) (by rw [submission])
        cases op <;> simp_all [isRefund, DaoOp.still]
    | _ =>
        exact same (by simp [isClaim, hh]) (by simp [isRefund, hh]) (by simp [*]) (by simp [*])

theorem isClaim_of_refund {e : Happening} (h : isRefund e = true) : isClaim e = false := by
  cases hh : hit e with
  | none => simp [isClaim, hh]
  | some op => cases op <;> simp_all [isClaim, isRefund]

/-- Between two claims without a clearing the intent is held. -/
theorem held_of_claim {l₂ l₃ : Log} {e : Happening} (he : isClaim e = true)
    (hn : ∀ x ∈ l₂, isClear x = false) : held (l₂ ++ e :: l₃) := by
  induction l₂ with
  | nil => exact .inl he
  | cons x l₂ ih =>
      exact .inr ⟨hn x List.mem_cons_self, ih fun y hy => hn y (List.mem_cons_of_mem _ hy)⟩

theorem account_inserted {w : World} (hw : Inserted w.row) : Account w [] := by
  refine ⟨?_, fun hh => hh.elim, ?_⟩
  · rw [hw.attempts]
    rfl
  · rintro (- | ⟨x, l₁⟩) e l₂ heq - <;> cases heq

theorem account_run {G : (gateway C t).Condition} {w : World} {c : Config (gateway C t)}
    (hw : Inserted w.row) (h : Run G ((gateway C t).initial w) c) : Account c.world c.log := by
  refine gateway_invariant Account (account_inserted hw) ?_ ?_ ?_ h
  · exact fun w l u κ _ _ ha => ha.quiet rfl rfl rfl rfl
  · exact fun w l u o γ r w' hl ha hal hw _ => ha.act hl hal hw
  · exact fun w l u _ ha => ha.quiet rfl rfl rfl rfl

/-- **Submission accounting.**  In every run: no more create calls are sent than intents are
claimed; between two claims the intent was cleared; the attempts are the claims less the attempts
given back; and an attempt is given back only where there is one. -/
theorem submission_accounting {c : Config (gateway C t)}
    (h : Reachable C t (gateway C t).anything c) :
    (creators c.log).length ≤ (claimers c.log).length ∧
      (∀ l₁ e' l₂ e l₃, c.log = l₁ ++ e' :: (l₂ ++ e :: l₃) → isClaim e' = true →
        isClaim e = true → ∃ x ∈ l₂, isClear x = true) ∧
      c.world.row.attempts + (refunders c.log).length = (claimers c.log).length ∧
      ∀ (u : ℕ) (o : Op) (k : Except Exn o.Ans → Handler Unit) (γ : Choice)
        (r : Except Exn o.Ans) (w' : World), c.prog u = .op o k →
        respond c.world o γ = some (r, w') → isRefund (.act u o r) = true →
          1 ≤ c.world.row.attempts := by
  obtain ⟨w, hw, hrun⟩ := h
  have hl := ledger_run hrun
  have ha := account_run hw hrun
  refine ⟨(hl.creates.subperm hl.creators_claimed).length_le, ?_, ha.attempts, ?_⟩
  · intro l₁ e' l₂ e l₃ heq he' he
    by_contra hn
    have hn' : ∀ x ∈ l₂, isClear x = false := fun x hx => by
      by_contra hc
      exact hn ⟨x, hx, by simpa using hc⟩
    exact ha.spaced l₁ e' _ heq he' (held_of_claim he hn')
  · intro u o k γ r w' hp hw' hr
    have hl' : Ledger C t (.act u o r :: c.log) := hl.act (allowed_run hrun hp)
    have hle := (hl'.refunds.subperm hl'.refunders_claimed).length_le
    have hacc := ha.attempts
    rw [refunders, claimers, length_doers_cons, length_doers_cons, hr, isClaim_of_refund hr] at hle
    simp only [if_true, Bool.false_eq_true, if_false] at hle
    rw [refunders, claimers] at hacc
    omega

/-- The create call is answered by 429, the attempt is given back, and the task is claimed again. -/
def limitedOnce {t : ResolvedTemplate} : Script t :=
  submitting 0 0 ++
    goesOn 0 0 [.done, .upstream (.ok { statusCode := 429 }), .done, .rat 5, .done, .done, .done] ++
    submitting 1 60 ++ goesOn 1 60 [.done]

/-- Two claims, one of them given back. -/
theorem submission_accounting_limitedOnce :
    ∃ c, Run (gateway (sampleContainer sampleTemplate) sampleTemplate).anything
        (sampleStart sampleTemplate sampleRow) c ∧
      claimers c.log = [1, 0] ∧ refunders c.log = [0] ∧ creators c.log = [1, 0] ∧
        c.world.row.attempts + (refunders c.log).length = (claimers c.log).length := by
  obtain ⟨c, hrun, hc⟩ := reached (t := sampleTemplate) sampleRow limitedOnce
    (fun _ _ _ _ _ => true)
    (fun c => decide (claimers c.log = [1, 0] ∧ refunders c.log = [0] ∧ creators c.log = [1, 0]))
    (fun _ _ _ _ _ _ => trivial) (by decide +kernel)
  obtain ⟨hclaimers, hrefunders, hcreators⟩ := of_decide_eq_true hc
  exact ⟨c, hrun, hclaimers, hrefunders, hcreators,
    (submission_accounting ⟨_, inserted_sampleRow, hrun⟩).2.2.1⟩

/-! ### The budget -/

/-- The attempts the strategy of the task grants it. -/
def budget (C : Container) (row : AsyncTask) : ℤ :=
  match templateOf C row with
  | some t => TaskRuntime.maxAttempts (C.strategyFor row.channel t) row
  | none => 1

instance (c : Classification) : Decidable c.refunds := inferInstanceAs (Decidable (_ ∨ _))

/-- A create call is answered by 429, 401 or 403: it does not count. -/
def isFree : Happening → Bool
  | .act _ (.recv .create) (.ok r) => (createClass r).any fun c => decide c.refunds
  | _ => false

/-- The create calls that count. -/
def unrefunded (l : Log) : List ℕ := (creators l).filter fun u => decide (u ∉ doers isFree l)

/-- A write that opened the task for another claim without giving the attempt back. -/
def reopens (e : Happening) : Bool :=
  match hit e with
  | some (.releaseSubmitIntent _ _ decrement _ _ _ _ _) => !decrement
  | some (.advance .accepted _ _) => true
  | _ => false

/-- The task is opened again, with its attempt counted, only while it has attempts left. -/
def withinBudget (C : Container) (t : ResolvedTemplate) (limit : ℤ) : (gateway C t).Condition :=
  fun w _ u o r => reopens (.act u o r) = true → (w.row.attempts : ℤ) < limit

/-- A row within the budget; one that may be claimed is below it. -/
structure Budgeted (limit : ℤ) (w : World) (l : Log) : Prop where
  account : Account w l
  most : (w.row.attempts : ℤ) ≤ limit
  opened : w.row.status = accepted → w.row.submitStartedAt = none → (w.row.attempts : ℤ) < limit

theorem Budgeted.act {limit : ℤ} {w w' : World} {l : Log} {u : ℕ} {o : Op} {γ : Choice}
    {r : Except Exn o.Ans} (hl : Ledger C t l) (h : Budgeted limit w l)
    (ha : Allowed C t (phase C t l u) o) (hw : respond w o γ = some (r, w'))
    (hg : withinBudget C t limit w l u o r) : Budgeted limit w' (.act u o r :: l) := by
  have hacc := h.account.act hl ha hw
  -- a write that keeps attempts and intent, and opens nothing
  have same : w'.row.submission.attempts = w.row.submission.attempts →
      w'.row.submission.submitStartedAt = w.row.submission.submitStartedAt →
      (w'.row.status = accepted → w.row.status = accepted) → Budgeted limit w' (.act u o r :: l) := by
    intro hattempts hintent hstatus
    have hattempts : w'.row.attempts = w.row.attempts := hattempts
    have hintent : w'.row.submitStartedAt = w.row.submitStartedAt := hintent
    refine ⟨hacc, ?_, fun hs hi => ?_⟩
    · rw [hattempts]
      exact h.most
    · rw [hattempts]
      exact h.opened (hstatus hs) (hintent ▸ hi)
  obtain ⟨hh, hrow⟩ | ⟨op, hh, -, hchange, -⟩ := move_cases (u := u) ha hw
  · exact same (by rw [hrow]) (by rw [hrow]) (by rw [hrow]; exact id)
  · cases hchange with
    | claimed src unclaimed dst submission reported =>
        have hattempts : w'.row.attempts = w.row.attempts + 1 :=
          congrArg Submission.attempts submission
        have hstarted : w'.row.submitStartedAt = some _ :=
          congrArg Submission.submitStartedAt submission
        have hlt := h.opened src unclaimed
        refine ⟨hacc, ?_, fun _ hi => by simp [hstarted] at hi⟩
        rw [hattempts]
        push_cast
        omega
    | @released _ _ decrement _ _ _ _ _ src dst submission reported =>
        have hattempts : w'.row.attempts = if decrement then w.row.attempts - 1 else w.row.attempts :=
          congrArg Submission.attempts submission
        have hmost := h.most
        cases decrement with
        | true =>
            have hr : isRefund (.act u o r) = true := by simp [isRefund, hh]
            -- it takes back the attempt of its own claim
            have hnew := hacc.attempts
            have hold := h.account.attempts
            rw [refunders, claimers, length_doers_cons, length_doers_cons, hr,
              isClaim_of_refund hr] at hnew
            simp only [if_true, Bool.false_eq_true, if_false] at hnew
            rw [refunders, claimers] at hold
            exact ⟨hacc, by omega, fun _ _ => by omega⟩
        | false =>
            have hlt := hg (by simp [reopens, hh])
            have hattempts : w'.row.attempts = w.row.attempts := hattempts
            exact ⟨hacc, by omega, fun _ _ => by omega⟩
    | reopened src dst submission reported =>
        have hattempts : w'.row.attempts = w.row.attempts := congrArg Submission.attempts submission
        have hlt := hg (by simp [reopens, hh])
        exact ⟨hacc, by omega, fun _ _ => by omega⟩
    | submitted src _ dst submission reported =>
        exact same (by rw [submission]) (by rw [submission]) (by simp [dst])
    | relocated src given dst submission reported =>
        exact same (by rw [submission]) (by rw [submission]) (by simp [dst])
    | moved edge src dst closed submission reported =>
        exact same (by rw [submission]) (by rw [submission]) fun hs => absurd (dst ▸ hs) closed
    | doubted src dst submission reported =>
        exact same (by rw [submission]) (by rw [submission]) fun _ => src
    | flagged src dst submission reported =>
        exact same (by rw [submission]) (by rw [submission]) fun hs => dst ▸ hs
    | recorded src dst submission reported =>
        exact same (by rw [submission]) (by rw [submission]) fun hs => dst ▸ hs
    | kept still dst submission reported =>
        exact same (by rw [submission]) (by rw [submission]) fun hs => dst ▸ hs

theorem budgeted_run {limit : ℤ} {w : World} {c : Config (gateway C t)} (hw : Inserted w.row)
    (h1 : 1 ≤ limit) (h : Run (withinBudget C t limit) ((gateway C t).initial w) c) :
    Budgeted limit c.world c.log := by
  have start : Budgeted limit w [] := by
    refine ⟨account_inserted hw, ?_, fun _ _ => ?_⟩ <;> rw [hw.attempts] <;> omega
  refine gateway_invariant (Budgeted limit) start ?_ ?_ ?_ h
  · exact fun w l u κ _ _ hb => ⟨hb.account.quiet rfl rfl rfl rfl, hb.most, hb.opened⟩
  · exact fun w l u o γ r w' hl hb ha hw hg => hb.act hl ha hw hg
  · exact fun w l u _ hb => ⟨hb.account.quiet rfl rfl rfl rfl, hb.most, hb.opened⟩

theorem mem_isFree {l : Log} {u : ℕ} {r : Except HttpxError HttpResponse} {c : Classification}
    (ha : answered l u r) (hc : createClass r = some c) (hr : c.refunds) : u ∈ doers isFree l :=
  mem_doers.mpr ⟨_, ha, by simpa [isFree, hc] using hr, rfl⟩

/-- The create calls that count are no more than the attempts. -/
theorem unrefunded_le {w : World} {l : Log} (hl : Ledger C t l) (ha : Account w l) :
    (unrefunded l).length ≤ w.row.attempts := by
  have hd : (unrefunded l ++ refunders l).Nodup := by
    refine List.nodup_append.mpr ⟨hl.creates.filter _, hl.refunds, ?_⟩
    rintro u hu v hv rfl
    obtain ⟨hu, hn⟩ := List.mem_filter.mp hu
    obtain ⟨r, c, hr, hc, hf⟩ := hl.refunded u hv hu
    exact of_decide_eq_true hn (mem_isFree hr hc hf)
  have hsub : unrefunded l ++ refunders l ⊆ claimers l := by
    intro u hu
    obtain hu | hu := List.mem_append.mp hu
    · exact hl.creators_claimed u (List.mem_of_mem_filter hu)
    · exact hl.refunders_claimed u hu
  have hle := (hd.subperm hsub).length_le
  have hacc := ha.attempts
  rw [List.length_append] at hle
  omega

/-- **The attempt budget.**  In every run that opens the task again, other than by giving the
attempt back, only while its attempts are below the budget of its strategy, the create calls that
count never exceed that budget. -/
theorem attempt_budget {w : World} {c : Config (gateway C t)} (hw : Inserted w.row)
    (hb : 1 ≤ budget C w.row)
    (h : Run (withinBudget C t (budget C w.row)) ((gateway C t).initial w) c) :
    ((unrefunded c.log).length : ℤ) ≤ budget C w.row := by
  have hle := unrefunded_le (ledger_run h) (account_run hw h)
  have hmost := (budgeted_run hw hb h).most
  omega

/-- The create call is refused a connection, and the task is opened again. -/
def refusedOnce {t : ResolvedTemplate} : Script t :=
  submitting 0 0 ++
    goesOn 0 0 [.done, .upstream (.error ⟨.connectError, "refused"⟩), .rat 0, .done, .done, .done]

/-- A template that grants one attempt. -/
def singleAttempt : ResolvedTemplate :=
  { sampleTemplate with strategy := { maxAttempts := some 1 } }

theorem attempt_budget_exceeded :
    ∃ c, Run (gateway (sampleContainer singleAttempt) singleAttempt).anything
        (sampleStart singleAttempt sampleRow) c ∧
      budget (sampleContainer singleAttempt) sampleRow < (unrefunded c.log).length := by
  obtain ⟨c, hrun, hc⟩ := reached (t := singleAttempt) sampleRow
    (refusedOnce ++ submitting 1 0 ++ goesOn 1 0 [.done]) (fun _ _ _ _ _ => true)
    (fun c => decide (budget (sampleContainer singleAttempt) sampleRow < (unrefunded c.log).length))
    (fun _ _ _ _ _ _ => trivial) (by decide +kernel)
  exact ⟨c, hrun, of_decide_eq_true hc⟩

/-- A template that grants two attempts. -/
def twoAttempts : ResolvedTemplate :=
  { sampleTemplate with strategy := { maxAttempts := some 2 } }

theorem attempt_budget_twice :
    ∃ c, Run (withinBudget (sampleContainer twoAttempts) twoAttempts
          (budget (sampleContainer twoAttempts) sampleRow)) (sampleStart twoAttempts sampleRow) c ∧
      unrefunded c.log = [1, 0] ∧
        ((unrefunded c.log).length : ℤ) ≤ budget (sampleContainer twoAttempts) sampleRow := by
  obtain ⟨c, hrun, hc⟩ := reached (t := twoAttempts)
    (G := withinBudget _ _ (budget (sampleContainer twoAttempts) sampleRow)) sampleRow
    (refusedOnce ++ submitting 1 0 ++ goesOn 1 0 [.done])
    (fun w _ u o r => !reopens (.act u o r) ||
      decide ((w.row.attempts : ℤ) < budget (sampleContainer twoAttempts) sampleRow))
    (fun c => decide (unrefunded c.log = [1, 0]))
    (fun w l u o r h hr => by simpa [hr] using h) (by decide +kernel)
  exact ⟨c, hrun, of_decide_eq_true hc,
    attempt_budget inserted_sampleRow (by decide) hrun⟩

end AsyncGateway
