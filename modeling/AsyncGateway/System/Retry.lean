import AsyncGateway.System.Attempts

/-!
# System — what becomes of a failed task

A task that failed is dispatched to `submit_upstream` again, which claims the intent of an accepted
task only: it is never claimed again, and no handler that starts afterwards sends a create call
(`failed_never_retried`).
-/

namespace AsyncGateway

open TaskStatus
open Interleave

variable {C : Container} {t : ResolvedTemplate}

/-- The states a failed task can still come to. -/
def afterFailed : List TaskStatus := [failed, cancelled, dead, deadAwaitingConfirm]

/-- A write leaves a failed task failed, or ends it. -/
theorem afterFailed_of_change {l : Local} {row row' : AsyncTask} {op : DaoOp}
    (hs : row.status ∈ afterFailed) (ha : AllowedWrite C t l op) (h : Change row row' op) :
    row'.status ∈ afterFailed ∧ row'.attempts ≤ row.attempts := by
  have attempts : row'.submission.attempts ≤ row.submission.attempts →
      row'.attempts ≤ row.attempts := id
  have out : ∀ s, row.status = s → s ∉ afterFailed → row'.status ∈ afterFailed ∧
      row'.attempts ≤ row.attempts := fun s he hn => absurd (he ▸ hs) hn
  cases h with
  | claimed src unclaimed dst submission reported => exact out _ src (by decide)
  | submitted src held dst submission reported => exact out _ src (by decide)
  | reopened src dst submission reported => exact out _ src (by decide)
  | doubted src dst submission reported => exact out _ src (by decide)
  | relocated src given dst submission reported => exact out _ src (by decide)
  | @moved target expected values edge src dst closed submission reported =>
      refine ⟨?_, attempts (by rw [submission])⟩
      rw [dst]
      -- elsewhere the whitelist forbids it, or the handlers do not ask for it
      cases target with
      | accepted => exact absurd rfl closed
      | upstreamSubmitted => exact ha.elim
      | submitUnknown =>
          obtain ⟨⟨s, hs', rfl⟩, -, -⟩ := ha
          have he := List.mem_singleton.mp (src _ rfl)
          revert hs hs'
          rw [he]
          cases s <;> decide
      | inProgress | pollUnrecognized | succeeded | timeout =>
          revert hs edge
          cases row.status <;> decide
      | _ => decide
  | released src dst submission reported =>
      refine ⟨dst ▸ hs, attempts ?_⟩
      rw [submission]
      dsimp only
      split
      · exact Nat.sub_le _ _
      · exact le_rfl
  | flagged src dst submission reported => exact ⟨dst ▸ hs, attempts (by rw [submission])⟩
  | recorded src dst submission reported => exact ⟨dst ▸ hs, attempts (by rw [submission])⟩
  | kept still dst submission reported => exact ⟨dst ▸ hs, attempts (by rw [submission])⟩

/-- Since the task failed nobody claimed its intent. -/
structure Unretried (attempts : ℕ) (claims : List ℕ) (w : World) (l : Log) : Prop where
  status : w.row.status ∈ afterFailed
  attempts : w.row.attempts ≤ attempts
  claims : claimers l = claims

theorem Unretried.act {attempts : ℕ} {claims : List ℕ} {w w' : World} {l : Log} {u : ℕ} {o : Op}
    {γ : Choice} {r : Except Exn o.Ans} (h : Unretried attempts claims w l)
    (ha : Allowed C t (phase C t l u) o) (hw : respond w o γ = some (r, w')) :
    Unretried attempts claims w' (.act u o r :: l) := by
  have claims_cons : isClaim (.act u o r) = false → claimers (.act u o r :: l) = claims := by
    intro he
    rw [claimers, doers_cons, he]
    exact h.claims
  obtain ⟨hh, hrow⟩ | ⟨op, hh, hop, hchange, -⟩ := move_cases (u := u) ha hw
  · exact ⟨hrow ▸ h.status, hrow ▸ h.attempts, claims_cons (by simp [isClaim, hh])⟩
  · obtain ⟨hs, hle⟩ := afterFailed_of_change h.status hop hchange
    refine ⟨hs, hle.trans h.attempts, claims_cons ?_⟩
    cases hchange with
    | claimed src unclaimed dst submission reported =>
        exact absurd (src ▸ h.status) (by decide)
    | kept still dst submission reported => exact isClaim_of_still hh still
    | _ => simp [isClaim, hh]

/-- **A failed task is never retried.**  Whatever runs after a task failed: its intent is not
claimed again, its attempts do not grow, a handler that starts afterwards sends no create call, and
the task stays failed until it is ended without one. -/
theorem failed_never_retried {w : World} {c₁ c₂ : Config (gateway C t)}
    (h₁ : Run (gateway C t).anything ((gateway C t).initial w) c₁)
    (hs : c₁.world.row.status = failed) (h : Run (gateway C t).anything c₁ c₂) :
    claimers c₂.log = claimers c₁.log ∧ c₂.world.row.attempts ≤ c₁.world.row.attempts ∧
      (∀ u, c₁.next ≤ u → u ∉ creators c₂.log) ∧ c₂.world.row.status ∈ afterFailed := by
  have hu : Unretried c₁.world.row.attempts (claimers c₁.log) c₂.world c₂.log := by
    refine gateway_invariant_from (Unretried c₁.world.row.attempts (claimers c₁.log)) h₁
      ⟨by rw [hs]; decide, le_rfl, rfl⟩ ?_ ?_ ?_ h
    · exact fun w l u κ _ _ hu => ⟨hu.status, hu.attempts, hu.claims⟩
    · exact fun w l u o γ r w' _ hu ha hw _ => hu.act ha hw
    · exact fun w l u _ hu => ⟨hu.status, hu.attempts, hu.claims⟩
  refine ⟨hu.claims, hu.attempts, fun u hlt hm => ?_, hu.status⟩
  have hclaimed := (ledger_run (h₁.trans h)).creators_claimed u hm
  rw [hu.claims] at hclaimed
  obtain ⟨e, he, -, rfl⟩ := mem_doers.mp hclaimed
  have hk : Keeps (discipline C t) c₁ := Keeps.run follows_body (Keeps.initial w) h₁
  have hnamed := hk.named e he
  omega

/-- The task is created and polled, and the upstream reports a failure. -/
def reportedFailed {t : ResolvedTemplate} : Script t :=
  created [] ++ polled 1 (.obj [("status", .str "failed")]) ++
    goesOn 1 0 [.done, .rat 0, .done, .done, .done, .done]

/-- Handler 2 is a `submit_upstream` that is granted a slot, and returns. -/
def dispatchedAgain {t : ResolvedTemplate} : Script t :=
  .spawn .submitUpstream ::
    goesOn 2 0 [.done, .text (some "key"), .slot ⟨true, none⟩, .done, .done]

/-- `submit_upstream` ran on a failed task with attempts left, in a slot and with a credential: it
returned, and neither claimed the intent nor called the upstream. -/
theorem failed_not_retried :
    ∃ c₁ c₂, Run (gateway (sampleContainer twoAttempts) twoAttempts).anything
        (sampleStart twoAttempts sampleRow) c₁ ∧
      Run (gateway (sampleContainer twoAttempts) twoAttempts).anything c₁ c₂ ∧
      c₁.world.row.status = failed ∧
      (c₁.world.row.attempts : ℤ) < budget (sampleContainer twoAttempts) c₁.world.row ∧
      c₁.next = 2 ∧ returned c₂ 2 = true ∧ c₂.world.row.status = failed ∧
      c₂.world.row.attempts = c₁.world.row.attempts ∧ 2 ∉ claimers c₂.log ∧
      2 ∉ creators c₂.log := by
  obtain ⟨c₁, h₁, hp⟩ := reached (t := twoAttempts) sampleRow reportedFailed
    (fun _ _ _ _ _ => true)
    (fun c₁ => decide (c₁.world.row.status = failed ∧
        (c₁.world.row.attempts : ℤ) < budget (sampleContainer twoAttempts) c₁.world.row ∧
        c₁.next = 2) &&
      (c₁.exec (fun _ _ _ _ _ => true) dispatchedAgain).any fun c₂ =>
        decide (returned c₂ 2 = true ∧ c₂.world.row.status = failed ∧
          c₂.world.row.attempts = c₁.world.row.attempts ∧ 2 ∉ claimers c₂.log ∧
          2 ∉ creators c₂.log))
    (fun _ _ _ _ _ _ => trivial) (by decide +kernel)
  obtain ⟨hp₁, hp₂⟩ := Bool.and_eq_true_iff.mp hp
  obtain ⟨c₂, h₂, hp₂⟩ := Run.of_any_exec (fun _ _ _ _ _ _ => trivial) hp₂
  obtain ⟨hfailed, hlt, hnext⟩ := of_decide_eq_true hp₁
  exact ⟨c₁, c₂, h₁, h₂, hfailed, hlt, hnext, of_decide_eq_true hp₂⟩

theorem failed_never_retried_reported :
    ∃ c₁ c₂, Run (gateway (sampleContainer twoAttempts) twoAttempts).anything c₁ c₂ ∧
      c₁.world.row.status = failed ∧ c₁.next < c₂.next ∧
      claimers c₂.log = claimers c₁.log ∧ c₂.world.row.attempts ≤ c₁.world.row.attempts ∧
      (∀ u, c₁.next ≤ u → u ∉ creators c₂.log) ∧ c₂.world.row.status ∈ afterFailed := by
  obtain ⟨c₁, h₁, hp⟩ := reached (t := twoAttempts) sampleRow reportedFailed
    (fun _ _ _ _ _ => true)
    (fun c₁ => decide (c₁.world.row.status = failed) &&
      (c₁.exec (fun _ _ _ _ _ => true) dispatchedAgain).any fun c₂ =>
        decide (c₁.next < c₂.next))
    (fun _ _ _ _ _ _ => trivial) (by decide +kernel)
  obtain ⟨hfailed, hp₂⟩ := Bool.and_eq_true_iff.mp hp
  obtain ⟨c₂, hrun, hnext⟩ := Run.of_any_exec (fun _ _ _ _ _ _ => trivial) hp₂
  have hs : c₁.world.row.status = failed := of_decide_eq_true hfailed
  exact ⟨c₁, c₂, hrun, hs, of_decide_eq_true hnext, failed_never_retried h₁ hs hrun⟩

end AsyncGateway
