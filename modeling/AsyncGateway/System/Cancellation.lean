import AsyncGateway.System.Duplicates

/-!
# System — a cancellation beside a create call

A task is cancelled only when the outcome of every create call is known, and a handler that reports
its submission of a task that is to be cancelled sends the cancellation after it
(`cancel_beside_create`).  Both take care: where the task is cancelled before it is submitted, where
it is opened again or returned to polling, and which copy of the flag the submission goes by
(`cancelsSafely`).
-/

namespace AsyncGateway

open TaskStatus
open Interleave

variable {C : Container} {t : ResolvedTemplate}

/-! ### What the log says -/

/-- The task is cancelled. -/
def isCancel (e : Happening) : Bool :=
  match hit e with
  | some (.advance .cancelled _ _) => true
  | _ => false

/-- A submission is reported. -/
def isSubmitted (e : Happening) : Bool :=
  match hit e with
  | some (.markSubmitted _ _ _ _ _) => true
  | _ => false

/-- The task is returned to polling. -/
def isRelocation (e : Happening) : Bool :=
  match hit e with
  | some (.relocateCompensate _ .upstreamSubmitted _ _ _ _) => true
  | _ => false

/-- A request to cancel the task commits. -/
def isCancelRequest (e : Happening) : Bool :=
  match hit e with
  | some .setCancelRequested => true
  | _ => false

/-- The handler sends the message that cancels the task upstream. -/
def reminds (u : ℕ) : Happening → Bool
  | .act v (.enqueue message) (.ok _) => decide (v = u ∧ message.name = "cancel_upstream")
  | _ => false

/-- A query that was sent after the create call of `v` had ended came to a conclusion. -/
def resolved (C : Container) (t : ResolvedTemplate) (l : Log) (v : ℕ) : Prop :=
  ∃ l₁ l₂, l = l₁ ++ l₂ ∧ ∃ u c, Concluded C (phase C t l₂ u) c ∧ asked l₂ u v

/-- The create call of `v` is over, and what became of it is known: it was answered with what is in
no doubt, it was reported, or a query came to a conclusion on it. -/
def settled (C : Container) (t : ResolvedTemplate) (l : Log) (v : ℕ) : Prop :=
  ended l v ∧
    (cleared l v ∨ (∃ r c, answered l v r ∧ createClass r = some c ∧
        c.errorClass ≠ .confirmRequired) ∨
      v ∈ doers isSubmitted l ∨ resolved C t l v)

/-- What the writes of a run have to take care of: a task is opened again on a denial of an
undisturbed query, while it has no id; it is returned to polling on an undisturbed query; it is
cancelled before its submission only with the intent clear; and its submission is reported by a
handler whose copy of the row knows that it is to be cancelled. -/
structure cancelsSafely (C : Container) (t : ResolvedTemplate) (w : World) (l : Log) (u : ℕ)
    (o : Op) (r : Except Exn o.Ans) : Prop where
  reopens : reopensSafely C t w l u o r
  nameless : isReopen (.act u o r) = true → w.row.upstreamTaskId = none
  relocates : isRelocation (.act u o r) = true → (phase C t l u).stage.inquired →
    undisturbed C t l u
  cancels : isCancel (.act u o r) = true → w.row.status = accepted → w.row.submitStartedAt = none
  flag : isSubmitted (.act u o r) = true → w.row.cancelRequested = true →
    (phase C t l u).loaded.any (·.cancelRequested) = true

section Settled

variable {l : Log} {v : ℕ}

theorem resolved.cons (h : resolved C t l v) (e : Happening) : resolved C t (e :: l) v := by
  obtain ⟨l₁, l₂, rfl, hc⟩ := h
  exact ⟨e :: l₁, l₂, rfl, hc⟩

theorem settled.cons (h : settled C t l v) (e : Happening) : settled C t (e :: l) v := by
  obtain ⟨he, hc | ⟨r, c, hr, hc⟩ | hs | hr⟩ := h
  · exact ⟨he.cons e, .inl (hc.cons e)⟩
  · exact ⟨he.cons e, .inr (.inl ⟨r, c, List.mem_cons_of_mem _ hr, hc⟩)⟩
  · obtain ⟨x, hx, hs⟩ := mem_doers.mp hs
    exact ⟨he.cons e, .inr (.inr (.inl (mem_doers.mpr ⟨x, List.mem_cons_of_mem _ hx, hs⟩)))⟩
  · exact ⟨he.cons e, .inr (.inr (.inr (hr.cons e)))⟩

theorem ended_of_answered {r : Except HttpxError HttpResponse} (h : answered l v r) : ended l v :=
  ⟨_, h, by simp [ends]⟩

theorem ended_of_asked {u : ℕ} (h : asked l u v) : ended l v := by
  induction l with
  | nil => exact h.elim
  | cons e l ih =>
      obtain ⟨-, he⟩ | h := h
      · exact he.cons e
      · exact (ih h).cons e

theorem ended_of_disproved (h : disproved l v) : ended l v := by
  induction l with
  | nil => exact h.elim
  | cons e l ih =>
      obtain ⟨-, ha⟩ | h := h
      · exact (ended_of_asked ha).cons e
      · exact (ih h).cons e

theorem settled_of_cleared (h : cleared l v) : settled C t l v := by
  refine ⟨?_, .inl h⟩
  obtain ⟨r, c, hr, -⟩ | hd := h
  · exact ended_of_answered hr
  · exact ended_of_disproved hd

theorem settled_of_asked {u : ℕ} {c : Confirmation} (hc : Concluded C (phase C t l u) c)
    (ha : asked l u v) : settled C t l v :=
  ⟨ended_of_asked ha, .inr (.inr (.inr ⟨[], l, rfl, u, c, hc, ha⟩))⟩

end Settled

/-! ### The invariant -/

/-- The states that say that the upstream has the task. -/
def submittedStatuses : List TaskStatus := [upstreamSubmitted, inProgress, pollUnrecognized, failed]

/-- The row says that the upstream has the task, or had it. -/
def AsyncTask.atUpstream (row : AsyncTask) : Prop :=
  row.status ∈ submittedStatuses ∨ row.upstreamTaskId ≠ none

/-- Where the row says that the upstream has the task, nobody submits it, and the outcome of every
create call is known. -/
structure Settled (C : Container) (t : ResolvedTemplate) (w : World) (l : Log) : Prop where
  nameless : w.row.status = accepted → w.row.upstreamTaskId = none
  underWay : ∀ u, (phase C t l u).stage.underWay → ¬ w.row.atUpstream
  known : w.row.atUpstream → ∀ v ∈ creators l, settled C t l v
  seen : ∀ u, ∀ row ∈ (phase C t l u).seen, row.upstreamTaskId ≠ none →
    w.row.upstreamTaskId ≠ none
  cancels : ∀ l₁ e l₂, l = l₁ ++ e :: l₂ → isCancel e = true → ∀ v ∈ creators l₂, settled C t l₂ v

section Act

variable {w w' : World} {l : Log} {u : ℕ} {o : Op} {γ : Choice} {r : Except Exn o.Ans}

/-- An id that the row has is never lost. -/
theorem upstreamTaskId_of_change {row row' : AsyncTask} {op : DaoOp} (h : Change row row' op)
    (hid : row.upstreamTaskId ≠ none) : row'.upstreamTaskId ≠ none := by
  have of : row'.submission.upstreamTaskId ≠ none → row'.upstreamTaskId ≠ none := id
  cases h <;> refine of ?_ <;> simp_all [AsyncTask.submission]

/-- No transition leads to a state at the upstream but from one, and but for the submission. -/
theorem submittedStatuses_of_edge {src dst : TaskStatus} (h : Edge src dst)
    (hdst : dst ∈ submittedStatuses) (hn : dst ≠ upstreamSubmitted) : src ∈ submittedStatuses := by
  revert h hdst hn
  cases src <;> cases dst <;> decide

/-- What brings a task to the upstream: the report of a submission, or a return to polling. -/
theorem atUpstream_of_act (ha : Allowed C t (phase C t l u) o)
    (hw : respond w o γ = some (r, w')) (h : w'.row.atUpstream) :
    w.row.atUpstream ∨ (isSubmitted (.act u o r) = true ∧ ∃ a, (phase C t l u).stage = .created a) ∨
      isRelocation (.act u o r) = true ∧
        ((∃ row ∈ (phase C t l u).seen, row.upstreamTaskId ≠ none) ∨
          ∃ c, Concluded C (phase C t l u) c) := by
  obtain ⟨-, hrow⟩ | ⟨op, hh, hop, hchange, -⟩ := move_cases (u := u) ha hw
  · exact .inl (hrow ▸ h)
  · -- a write that keeps the id, and does not lead to the upstream
    have same : w'.row.submission.upstreamTaskId = w.row.submission.upstreamTaskId →
        (w'.row.status ∈ submittedStatuses → w.row.status ∈ submittedStatuses) →
        w.row.atUpstream :=
      fun hid hs => h.imp hs fun hn he => hn (hid.trans he)
    have off : ∀ s, w'.row.status = s → s ∉ submittedStatuses →
        w'.row.status ∈ submittedStatuses → w.row.status ∈ submittedStatuses :=
      fun s he hn hs => absurd (he ▸ hs) hn
    cases hchange with
    | claimed src unclaimed dst submission reported =>
        exact .inl (same (by rw [submission]) (off _ dst (by decide)))
    | reopened src dst submission reported =>
        exact .inl (same (by rw [submission]) (off _ dst (by decide)))
    | doubted src dst submission reported =>
        exact .inl (same (by rw [submission]) (off _ dst (by decide)))
    | submitted src held dst submission reported =>
        obtain ⟨-, a, hs, -⟩ := hop
        exact .inr (.inl ⟨by simp [isSubmitted, hh], a, hs⟩)
    | relocated src given dst submission reported =>
        refine .inr (.inr ⟨by simp [isRelocation, hh], ?_⟩)
        obtain ⟨hn, -⟩ | ⟨-, -, ⟨row, hl, -, hid⟩ | ⟨c, hc, -⟩⟩ := hop.2.2
        · cases hn
        · refine .inl ⟨row, List.mem_of_mem_head? hl, fun hn => ?_⟩
          rw [hn, nonEmpty_eq_some.mpr ⟨rfl, given⟩] at hid
          cases hid
        · exact .inr ⟨c, hc⟩
    | @moved target expected values edge src dst closed submission reported =>
        refine .inl (same (by rw [submission]) fun hs => ?_)
        rw [dst] at hs
        refine submittedStatuses_of_edge edge hs fun he => ?_
        subst he
        exact hop
    | released src dst submission reported =>
        exact .inl (same (by rw [submission]) fun hs => dst ▸ hs)
    | flagged src dst submission reported =>
        exact .inl (same (by rw [submission]) fun hs => dst ▸ hs)
    | recorded src dst submission reported =>
        exact .inl (same (by rw [submission]) fun hs => dst ▸ hs)
    | kept still dst submission reported =>
        exact .inl (same (by rw [submission]) fun hs => dst ▸ hs)

theorem Concluded.inquired {l : Local} {c : Confirmation} (h : Concluded C l c) :
    l.stage.inquired := by
  obtain ⟨row, bearer, a, t', hs, -⟩ := h
  rw [hs]
  trivial

/-- Only a claim or a reopening makes a task accepted, or keeps it so. -/
theorem nameless_of_act (ha : Allowed C t (phase C t l u) o) (hw : respond w o γ = some (r, w'))
    (h : w.row.status = accepted → w.row.upstreamTaskId = none)
    (hg : isReopen (.act u o r) = true → w.row.upstreamTaskId = none)
    (hs : w'.row.status = accepted) : w'.row.upstreamTaskId = none := by
  obtain ⟨-, hrow⟩ | ⟨op, hh, hop, hchange, -⟩ := move_cases (u := u) ha hw
  · rw [hrow]
    exact h (hrow ▸ hs)
  · have same : w'.row.submission.upstreamTaskId = w.row.submission.upstreamTaskId →
        w.row.upstreamTaskId = none → w'.row.upstreamTaskId = none := fun hid hn => hid.trans hn
    cases hchange with
    | claimed src unclaimed dst submission reported => exact same (by rw [submission]) (h src)
    | reopened src dst submission reported =>
        exact same (by rw [submission]) (hg (by simp [isReopen, hh]))
    | submitted src held dst submission reported => simp [dst] at hs
    | doubted src dst submission reported => simp [dst] at hs
    | relocated src given dst submission reported => simp [dst] at hs
    | moved edge src dst closed submission reported => exact absurd (dst ▸ hs) closed
    | released src dst submission reported => exact same (by rw [submission]) (h (dst ▸ hs))
    | flagged src dst submission reported => exact same (by rw [submission]) (h (dst ▸ hs))
    | recorded src dst submission reported => exact same (by rw [submission]) (h (dst ▸ hs))
    | kept still dst submission reported => exact same (by rw [submission]) (h (dst ▸ hs))

/-- A task is cancelled at the upstream, or before its submission. -/
theorem status_of_cancel (ha : Allowed C t (phase C t l u) o) (hw : respond w o γ = some (r, w'))
    (hc : isCancel (.act u o r) = true) : w.row.status = accepted ∨ w.row.atUpstream := by
  obtain ⟨hh, -⟩ | ⟨op, hh, hop, hchange, -⟩ := move_cases (u := u) ha hw
  · simp [isCancel, hh] at hc
  · cases hchange with
    | @moved target expected values edge src dst closed submission reported =>
        cases target with
        | cancelled =>
            have hs : ∀ s, Edge s cancelled → s = accepted ∨ s ∈ submittedStatuses := by
              intro s
              cases s <;> decide
            exact (hs _ edge).imp id .inl
        | _ => simp [isCancel, hh] at hc
    | kept still dst submission reported =>
        cases op <;> simp_all [isCancel, DaoOp.still]
    | _ => simp [isCancel, hh] at hc

theorem cancels_cons {e : Happening}
    (h : ∀ l₁ e l₂, l = l₁ ++ e :: l₂ → isCancel e = true → ∀ v ∈ creators l₂, settled C t l₂ v)
    (he : isCancel e = true → ∀ v ∈ creators l, settled C t l v) :
    ∀ l₁ e' l₂, e :: l = l₁ ++ e' :: l₂ → isCancel e' = true →
      ∀ v ∈ creators l₂, settled C t l₂ v := by
  rintro (- | ⟨x, l₁⟩) e' l₂ heq hc
  · obtain ⟨rfl, rfl⟩ := List.cons.inj heq
    exact he hc
  · obtain ⟨-, heq⟩ := List.cons.inj heq
    exact h l₁ e' l₂ heq hc

/-- Who claims finds an accepted task, which has no id. -/
theorem claim_accepted (ha : Allowed C t (phase C t l u) o) (hw : respond w o γ = some (r, w'))
    (hc : isClaim (.act u o r) = true) : w.row.status = accepted ∧ w'.row.status = accepted := by
  obtain ⟨hh, -⟩ | ⟨op, hh, hop, hchange, -⟩ := move_cases (u := u) ha hw
  · simp [isClaim, hh] at hc
  · cases hchange with
    | claimed src unclaimed dst submission reported => exact ⟨src, dst⟩
    | kept still dst submission reported => simp [isClaim_of_still hh still] at hc
    | _ => simp [isClaim, hh] at hc

/-- Who reports a submission is not under way any more. -/
theorem spent_of_submitted (hs : isSubmitted (.act u o r) = true) :
    ¬ ((phase C t l u).next o r).stage.underWay := by
  unfold isSubmitted at hs
  split at hs
  · rename_i hh
    obtain ⟨also, he⟩ := hit_eq_some hh
    cases he
    simp only [Local.next, Local.afterWrite]
    split <;> exact id
  · cases hs

/-- Nobody is under way with a task at the upstream. -/
theorem Settled.underWay_act (hx : Exclusive C t w l) (h : Settled C t w l)
    (ha : Allowed C t (phase C t l u) o) (hw : respond w o γ = some (r, w'))
    (hg : cancelsSafely C t w l u o r) (v : ℕ)
    (hv : (phase C t (.act u o r :: l) v).stage.underWay) : ¬ w'.row.atUpstream := by
  intro hup
  by_cases hc : isClaim (.act u o r) = true
  · obtain ⟨hs, hs'⟩ := claim_accepted ha hw hc
    have hn := nameless_of_act ha hw h.nameless hg.nameless hs'
    exact hup.elim (fun hs => by rw [hs'] at hs; exact absurd hs (by decide)) fun hne => hne hn
  · have hbefore : (phase C t l v).stage.underWay :=
      everyone_act (p := fun v l' => l'.stage.underWay → (phase C t l v).stage.underWay)
        (underWay_next ha (by simpa using hc)) (fun v => id) v hv
    obtain hup | ⟨hs, a, hcreated⟩ | ⟨hrel, ⟨row, hrow, hid⟩ | ⟨c, hconc⟩⟩ :=
      atUpstream_of_act ha hw hup
    · exact h.underWay v hbefore hup
    · have hvu : v = u := hx.exclusive v u hbefore (by rw [hcreated]; trivial)
      subst hvu
      rw [phase_act, if_pos rfl] at hv
      exact spent_of_submitted hs hv
    · exact h.underWay v hbefore (.inr (h.seen u row hrow hid))
    · exact hx.rest u (hg.relocates hrel hconc.inquired) v hbefore

/-- What brings a task to the upstream knows the outcome of every create call. -/
theorem Settled.known_act (hl : Ledger C t l) (hx : Exclusive C t w l) (h : Settled C t w l)
    (ha : Allowed C t (phase C t l u) o) (hw : respond w o γ = some (r, w'))
    (hg : cancelsSafely C t w l u o r) (hup : w'.row.atUpstream) :
    ∀ v ∈ creators (.act u o r :: l), settled C t (.act u o r :: l) v := by
  by_cases hn : isCreate (.act u o r) = true
  · -- a create call leaves the row, and its handler under way
    have hv : (phase C t (.act u o r :: l) u).stage.underWay := by
      have turn := turn_cases (u := u) (r := r) ha
      rw [phase_act, if_pos rfl]
      generalize (Local.next (phase C t l u) o r).stage = s at turn
      generalize (.act u o r : Happening) = e at turn hn
      cases turn with
      | create hs => trivial
      | stay quiet => simp [quiet.2.1] at hn
      | _ => cases hn
    exact absurd hup (h.underWay_act hx ha hw hg u hv)
  · rw [creators_of_not (by simpa using hn)]
    intro v hv
    obtain hup | ⟨hs, a, hcreated⟩ | ⟨hrel, ⟨row, hrow, hid⟩ | ⟨c, hconc⟩⟩ :=
      atUpstream_of_act ha hw hup
    · exact (h.known hup v hv).cons _
    · by_cases hvu : v = u
      · subst hvu
        refine ⟨(ended_of_answered (hl.told v a hcreated)).cons _, .inr (.inr (.inl ?_))⟩
        exact mem_doers.mpr ⟨_, List.mem_cons_self, hs, rfl⟩
      · exact (settled_of_cleared (hx.others u (by rw [hcreated]; trivial) v hv hvu)).cons _
    · exact (h.known (.inr (h.seen u row hrow hid)) v hv).cons _
    · have hasked := hx.inquired u hconc.inquired (hg.relocates hrel hconc.inquired) v hv
      exact (settled_of_asked hconc hasked).cons _

theorem Settled.act (hl : Ledger C t l) (hx : Exclusive C t w l) (h : Settled C t w l)
    (ha : Allowed C t (phase C t l u) o) (hw : respond w o γ = some (r, w'))
    (hg : cancelsSafely C t w l u o r) : Settled C t w' (.act u o r :: l) := by
  -- an id that is stored stays
  have persists : w.row.upstreamTaskId ≠ none → w'.row.upstreamTaskId ≠ none := by
    obtain ⟨-, hrow⟩ | ⟨op, -, -, hchange, -⟩ := move_cases (u := u) ha hw
    · rw [hrow]
      exact id
    · exact upstreamTaskId_of_change hchange
  constructor
  · exact nameless_of_act ha hw h.nameless hg.nameless
  · exact h.underWay_act hx ha hw hg
  · exact h.known_act hl hx ha hw hg
  · refine everyone_act (p := fun _ l' => ∀ row ∈ l'.seen, row.upstreamTaskId ≠ none → _) ?_ ?_
    · intro row hm hid
      obtain hm | rfl := seen_next hw hm
      · exact persists (h.seen u row hm hid)
      · exact persists hid
    · exact fun v row hm hid => persists (h.seen v row hm hid)
  · refine cancels_cons h.cancels fun hc v hv => ?_
    obtain hs | hup := status_of_cancel ha hw hc
    · exact settled_of_cleared (hx.opened ⟨hs, hg.cancels hc hs⟩ v hv)
    · exact h.known hup v hv

end Act

theorem Settled.calmer {w : World} {l : Log} {e : Happening} (h : Settled C t w l)
    (hn : isCreate e = false) (hc : isCancel e = false)
    (hp : ∀ v, (phase C t (e :: l) v).stage.underWay → (phase C t l v).stage.underWay)
    (hs : ∀ v, ∀ row ∈ (phase C t (e :: l) v).seen, row ∈ (phase C t l v).seen) :
    Settled C t w (e :: l) := by
  refine ⟨h.nameless, fun v hv => h.underWay v (hp v hv), ?_,
    fun v row hm => h.seen v row (hs v row hm), cancels_cons h.cancels (by simp [hc])⟩
  rw [creators_of_not hn]
  exact fun hup v hv => (h.known hup v hv).cons _

theorem Settled.spawn {w : World} {l : Log} (h : Settled C t w l) (u : ℕ) (κ : Work) :
    Settled C t w (.spawn u κ :: l) := by
  refine h.calmer rfl rfl ?_ ?_
  · exact everyone_spawn (p := fun v l' => l'.stage.underWay → (phase C t l v).stage.underWay)
      False.elim fun v => id
  · exact everyone_spawn (p := fun v l' => ∀ row ∈ l'.seen, row ∈ (phase C t l v).seen) (by simp)
      fun v row => id

theorem Settled.halt {w : World} {l : Log} (h : Settled C t w l) (u : ℕ) :
    Settled C t w (.halt u :: l) := by
  refine h.calmer rfl rfl ?_ ?_
  · exact everyone_halt (p := fun v l' => l'.stage.underWay → (phase C t l v).stage.underWay)
      False.elim fun v => id
  · exact everyone_halt (p := fun v l' => ∀ row ∈ l'.seen, row ∈ (phase C t l v).seen)
      (fun row => id) fun v row => id

/-! ### The message that is due -/

/-- A handler that reported the submission of a task that was to be cancelled owes a message, sent
it, or is gone. -/
structure Reminded (C : Container) (t : ResolvedTemplate) (w : World) (l : Log) : Prop where
  flagged : (∃ x ∈ l, isCancelRequest x = true) → w.row.cancelRequested = true
  owed : ∀ l₁ e l₂, l = l₁ ++ e :: l₂ → isSubmitted e = true →
    (∃ x ∈ l₂, isCancelRequest x = true) →
      (phase C t l e.thread).stage = .owing ∨ (∃ x ∈ l₁, reminds e.thread x = true) ∨
        .halt e.thread ∈ l₁

section Reminded

variable {w w' : World} {l : Log} {u : ℕ} {o : Op} {γ : Choice} {r : Except Exn o.Ans}

/-- Who owes the message owes it until it is sent. -/
theorem owing_next {l : Local} (ha : Allowed C t l o) (h : l.stage = .owing) :
    (l.next o r).stage = .owing ∨ reminds u (.act u o r) = true := by
  have turn := turn_cases (u := u) (r := r) ha
  generalize (l.next o r).stage = s at turn
  generalize (.act u o r : Happening) = e at turn
  cases turn with
  | stay quiet => exact .inl h
  | remind hs hm => exact .inr (by simp [reminds, hm])
  | submitted hs _ => cases h.symm.trans hs
  | release ha => obtain ⟨-, -, hs⟩ | ⟨-, a, c, hs, -⟩ := ha <;> cases h.symm.trans hs
  | giveUp hs => obtain hs | ⟨a, hs⟩ := hs <;> cases h.symm.trans hs
  | inquire hq => cases h.symm.trans hq.1
  | hear hs hl => cases h.symm.trans hs
  | claim hs | create hs | answer hs | lost hs | doubt hs | unheard hs => cases h.symm.trans hs

/-- The flag stays once it is set. -/
theorem flagged_of_act (ha : Allowed C t (phase C t l u) o) (hw : respond w o γ = some (r, w'))
    (h : w.row.cancelRequested = true ∨ isCancelRequest (.act u o r) = true) :
    w'.row.cancelRequested = true := by
  obtain ⟨hh, hrow⟩ | ⟨op, hh, hop, hchange, -⟩ := move_cases (u := u) ha hw
  · rw [hrow]
    exact h.resolve_right (by simp [isCancelRequest, hh])
  · have same : w'.row.submission.cancelRequested = w.row.submission.cancelRequested →
        isCancelRequest (.act u o r) = false → w'.row.cancelRequested = true :=
      fun he hn => he.trans (h.resolve_right (by simp [hn]))
    cases hchange with
    | flagged src dst submission reported =>
        exact congrArg Submission.cancelRequested submission
    | kept still dst submission reported =>
        refine same (by rw [submission]) ?_
        cases op <;> simp_all [isCancelRequest, DaoOp.still]
    | claimed _ _ _ submission | submitted _ _ _ submission | released _ _ submission
    | reopened _ _ submission | moved _ _ _ _ submission | doubted _ _ submission
    | relocated _ _ _ submission | recorded _ _ submission =>
        exact same (by rw [submission]) (by simp [isCancelRequest, hh])

theorem Reminded.act (h : Reminded C t w l) (ha : Allowed C t (phase C t l u) o)
    (hw : respond w o γ = some (r, w')) (hg : cancelsSafely C t w l u o r) :
    Reminded C t w' (.act u o r :: l) := by
  constructor
  · rintro ⟨x, hx, hc⟩
    obtain rfl | hx := List.mem_cons.mp hx
    · exact flagged_of_act ha hw (.inr hc)
    · exact flagged_of_act ha hw (.inl (h.flagged ⟨x, hx, hc⟩))
  · rintro (- | ⟨x, l₁⟩) e l₂ heq hs hc
    · obtain ⟨rfl, rfl⟩ := List.cons.inj heq
      refine .inl ?_
      have hflag := hg.flag hs (h.flagged hc)
      change (phase C t (.act u o r :: l) u).stage = .owing
      rw [phase_act, if_pos rfl]
      unfold isSubmitted at hs
      split at hs
      · obtain ⟨also, he⟩ := hit_eq_some ‹_›
        cases he
        simp [Local.next, Local.afterWrite, hflag]
      · cases hs
    · obtain ⟨rfl, hl⟩ := List.cons.inj heq
      obtain howing | ⟨y, hy, hrem⟩ | hgone := h.owed l₁ e l₂ hl hs hc
      · by_cases hv : e.thread = u
        · rw [hv] at howing ⊢
          rw [phase_act, if_pos rfl]
          obtain hstill | hrem := owing_next (u := u) (r := r) ha howing
          · exact .inl hstill
          · exact .inr (.inl ⟨_, List.mem_cons_self, hrem⟩)
        · rw [phase_act, if_neg hv]
          exact .inl howing
      · exact .inr (.inl ⟨y, List.mem_cons_of_mem _ hy, hrem⟩)
      · exact .inr (.inr (List.mem_cons_of_mem _ hgone))

theorem Reminded.spawn (h : Reminded C t w l) (hu : ∀ e ∈ l, e.thread ≠ u) (κ : Work) :
    Reminded C t w (.spawn u κ :: l) := by
  constructor
  · rintro ⟨x, hx, hc⟩
    obtain rfl | hx := List.mem_cons.mp hx
    · cases hc
    · exact h.flagged ⟨x, hx, hc⟩
  · rintro (- | ⟨x, l₁⟩) e l₂ heq hs hc
    · obtain ⟨rfl, rfl⟩ := List.cons.inj heq
      cases hs
    · obtain ⟨rfl, hl⟩ := List.cons.inj heq
      have hne : e.thread ≠ u := hu e (by simp [hl])
      rw [phase_spawn, if_neg hne]
      exact (h.owed l₁ e l₂ hl hs hc).imp_right fun h =>
        h.imp (fun ⟨y, hy⟩ => ⟨y, List.mem_cons_of_mem _ hy.1, hy.2⟩) (List.mem_cons_of_mem _)

theorem Reminded.halt (h : Reminded C t w l) (u : ℕ) : Reminded C t w (.halt u :: l) := by
  constructor
  · rintro ⟨x, hx, hc⟩
    obtain rfl | hx := List.mem_cons.mp hx
    · cases hc
    · exact h.flagged ⟨x, hx, hc⟩
  · rintro (- | ⟨x, l₁⟩) e l₂ heq hs hc
    · obtain ⟨rfl, rfl⟩ := List.cons.inj heq
      cases hs
    · obtain ⟨rfl, hl⟩ := List.cons.inj heq
      by_cases hv : e.thread = u
      · exact .inr (.inr (by simp [hv]))
      · rw [phase_halt, if_neg hv]
        exact (h.owed l₁ e l₂ hl hs hc).imp_right fun h =>
          h.imp (fun ⟨y, hy⟩ => ⟨y, List.mem_cons_of_mem _ hy.1, hy.2⟩) (List.mem_cons_of_mem _)

end Reminded

/-! ### In every run -/

theorem settled_inserted {w : World} (hw : Inserted w.row) : Settled C t w [] := by
  refine ⟨fun _ => hw.upstreamTaskId, fun u hu => hu.elim, fun _ v hv => (by cases hv),
    fun u row hm => (by cases hm), ?_⟩
  rintro (- | ⟨x, l₁⟩) e l₂ heq - <;> cases heq

theorem reminded_start {w : World} : Reminded C t w [] := by
  refine ⟨?_, ?_⟩
  · rintro ⟨x, hx, -⟩
    cases hx
  · rintro (- | ⟨x, l₁⟩) e l₂ heq - <;> cases heq

/-- **A cancellation beside a create call.**  In every run whose writes take care: a task is
cancelled only when every create call is over and its outcome known; and where a submission is
reported after a request to cancel the task committed, the handler that reported it sends the
cancellation afterwards, if it returns and is not stopped. -/
theorem cancel_beside_create {w : World} {c : Config (gateway C t)} (hw : Inserted w.row)
    (h : Run (cancelsSafely C t) ((gateway C t).initial w) c) :
    (∀ l₁ e l₂, c.log = l₁ ++ e :: l₂ → isCancel e = true →
      ∀ v ∈ creators l₂, settled C t l₂ v) ∧
    ∀ l₁ e l₂, c.log = l₁ ++ e :: l₂ → isSubmitted e = true →
      (∃ x ∈ l₂, isCancelRequest x = true) → c.prog e.thread = .pure () →
        .halt e.thread ∉ c.log → ∃ x ∈ l₁, reminds e.thread x = true := by
  have inv : Exclusive C t c.world c.log ∧ Settled C t c.world c.log ∧
      Reminded C t c.world c.log := by
    refine gateway_invariant
      (fun w l => Exclusive C t w l ∧ Settled C t w l ∧ Reminded C t w l)
      ⟨exclusive_inserted, settled_inserted hw, reminded_start⟩ ?_ ?_ ?_ h
    · exact fun w l u κ _ hu h => ⟨h.1.spawn u κ, h.2.1.spawn u κ, h.2.2.spawn hu κ⟩
    · exact fun w l u o γ r w' hl h ha hw hg =>
        ⟨h.1.act hl ha hw hg.reopens, h.2.1.act hl h.1 ha hw hg, h.2.2.act ha hw hg⟩
    · exact fun w l u _ h => ⟨h.1.halt u, h.2.1.halt u, h.2.2.halt u⟩
  refine ⟨inv.2.1.cancels, fun l₁ e l₂ heq hs hc hdone hn => ?_⟩
  have hk : Keeps (discipline C t) c := Keeps.run follows_body (Keeps.initial w) h
  obtain howing | hrem | hgone := inv.2.2.owed l₁ e l₂ heq hs hc
  · exact absurd howing (hk.done hdone)
  · exact hrem
  · exact absurd (heq ▸ List.mem_append_left _ hgone) hn

/-- The caller of the sample task. -/
def sampleCaller : AuthContext where
  channel := "channel"
  tenant := "tenant"
  bearer := none

/-- The task is cancelled while its create call is in flight. -/
def cancelInFlight {t : ResolvedTemplate} : Script t :=
  submitting 0 0 ++ goesOn 0 0 [.done] ++ .spawn .cancelUpstream :: goesOn 1 0 [.done, .done, .done]

/-- A request to cancel the task commits while its create call is in flight. -/
def cancelRequested {t : ResolvedTemplate} : Script t :=
  .spawn (.cancelRequest sampleCaller "task") ::
    goesOn 1 0 [.done, .done, .done, .done, .done, .done]

/-- The worker submits the task with a copy of the row that does not know of the request. -/
def submittedUnaware {t : ResolvedTemplate} : Script t :=
  submitting 0 0 ++ goesOn 0 0 [.done] ++ cancelRequested ++
    goesOn 0 0 [answers (.obj [("id", .str "upstream")]), .done, .rat 5, .done, .done, .done, .done,
      .done, .done, .done, .done]

theorem cancel_beside_create_missed :
    (∃ c, Run (gateway (sampleContainer sampleTemplate) sampleTemplate).anything
        (sampleStart sampleTemplate sampleRow) c ∧
      ∃ e l, c.log = e :: l ∧ isCancel e = true ∧ inFlight l 0) ∧
    ∃ c, Run (gateway (sampleContainer sampleTemplate) sampleTemplate).anything
        (sampleStart sampleTemplate sampleRow) c ∧
      ∃ l₁ e l₂, c.log = l₁ ++ e :: l₂ ∧ isSubmitted e = true ∧ e.thread = 0 ∧
        (∃ x ∈ l₂, isCancelRequest x = true) ∧ c.prog 0 = .pure () ∧
          ∀ x ∈ c.log, reminds 0 x = false := by
  constructor
  · obtain ⟨c, hrun, hc⟩ := reached (t := sampleTemplate) sampleRow cancelInFlight
      (fun _ _ _ _ _ => true)
      (fun c => match c.log with
        | e :: l => isCancel e && decide (inFlight l 0)
        | [] => false)
      (fun _ _ _ _ _ _ => trivial) (by decide +kernel)
    split at hc
    · rename_i e l hl
      obtain ⟨hcancel, hin⟩ := Bool.and_eq_true_iff.mp hc
      exact ⟨c, hrun, e, l, hl, hcancel, of_decide_eq_true hin⟩
    · cases hc
  · obtain ⟨c, hrun, hc⟩ := reached (t := sampleTemplate) sampleRow submittedUnaware
      (fun _ _ _ _ _ => true)
      (fun c => match c.log.drop 6 with
        | e :: l₂ => isSubmitted e && decide (e.thread = 0) && decide (∃ x ∈ l₂, isCancelRequest x = true) &&
            returned c 0 && decide (∀ x ∈ c.log, reminds 0 x = false)
        | [] => false)
      (fun _ _ _ _ _ _ => trivial) (by decide +kernel)
    split at hc
    · rename_i e l₂ hl
      simp only [Bool.and_eq_true, decide_eq_true_eq] at hc
      obtain ⟨⟨⟨⟨hs, ht⟩, hreq⟩, hdone⟩, hrem⟩ := hc
      exact ⟨c, hrun, c.log.take 6, e, l₂, hl ▸ (List.take_append_drop 6 c.log).symm, hs, ht, hreq,
        returned_iff.mp hdone, hrem⟩
    · cases hc

/-- The task is submitted inline, by a handler that loads the row after the create call; then it is
cancelled upstream. -/
def submittedAware {t : ResolvedTemplate} : Script t :=
  .spawn (.inlineSubmit ⟨"task", "channel", "tenant", some "key", []⟩) ::
    goesOn 0 0 [.done, .slot ⟨true, none⟩, .done, .text none, .done] ++ cancelRequested ++
    goesOn 0 0 [answers (.obj [("id", .str "upstream")]), .done, .done, .rat 5, .done, .done, .done,
      .done, .done, .done, .done, .done, .done, .done, .done, .done, .done] ++
    .spawn .cancelUpstream :: goesOn 2 0 [.done, .text (some "key"), .text none, .done,
      .upstream (.ok { statusCode := 200 }), .done, .done, .done]

/-- Whether a run cancels at the upstream only, and reports with the flag. -/
def cancelsPlainly (C : Container) (t : ResolvedTemplate) : (gateway C t).Check :=
  fun w l u o r => !isReopen (.act u o r) && !isRelocation (.act u o r) &&
    (!isCancel (.act u o r) || decide (w.row.status ≠ accepted)) &&
      (!isSubmitted (.act u o r) || (phase C t l u).loaded.any (·.cancelRequested))

theorem cancelsSafely_of_plainly {w : World} {l : Log} {u : ℕ} {o : Op} {r : Except Exn o.Ans}
    (h : cancelsPlainly C t w l u o r = true) : cancelsSafely C t w l u o r := by
  simp only [cancelsPlainly, Bool.and_eq_true, Bool.not_eq_true', Bool.or_eq_true,
    decide_eq_true_eq] at h
  obtain ⟨⟨⟨hre, hrel⟩, hcancel⟩, hflag⟩ := h
  refine ⟨⟨fun he => ?_, fun he => ?_⟩, fun he => ?_, fun he => ?_, fun hc hs => ?_, fun hs _ => ?_⟩
  · simp [hre] at he
  · simp [hre] at he
  · simp [hre] at he
  · simp [hrel] at he
  · exact absurd hs (hcancel.resolve_left (by simp [hc]))
  · exact hflag.resolve_left (by simp [hs])

theorem cancel_beside_create_inline :
    ∃ c, Run (cancelsSafely (sampleContainer sampleTemplate) sampleTemplate)
        (sampleStart sampleTemplate sampleRow) c ∧
      (∃ e l, c.log = e :: l ∧ isCancel e = true ∧ 0 ∈ creators l ∧
        settled (sampleContainer sampleTemplate) sampleTemplate l 0) ∧
      ∃ x ∈ c.log, reminds 0 x = true := by
  obtain ⟨c, hrun, hc⟩ := reached (t := sampleTemplate) sampleRow submittedAware
    (cancelsPlainly _ _)
    (fun c =>
      (match c.log with
        | e :: l => isCancel e && decide (0 ∈ creators l)
        | [] => false) &&
      (match c.log.drop 20 with
        | e :: l₂ => isSubmitted e && decide (e.thread = 0) &&
            decide (∃ x ∈ l₂, isCancelRequest x = true)
        | [] => false) &&
      returned c 0 && c.log.all fun x => !x.isHalt)
    (fun _ _ _ _ _ => cancelsSafely_of_plainly) (by decide +kernel)
  simp only [Bool.and_eq_true] at hc
  obtain ⟨⟨⟨hcancel, hsub⟩, hdone⟩, hhalt⟩ := hc
  obtain ⟨hsettled, hrem⟩ := cancel_beside_create inserted_sampleRow hrun
  refine ⟨c, hrun, ?_, ?_⟩
  · split at hcancel
    · rename_i e l hl
      obtain ⟨he, hm⟩ := Bool.and_eq_true_iff.mp hcancel
      exact ⟨e, l, hl, he, of_decide_eq_true hm,
        hsettled [] e l hl he 0 (of_decide_eq_true hm)⟩
    · cases hcancel
  · split at hsub
    · rename_i e l₂ hl
      simp only [Bool.and_eq_true, decide_eq_true_eq] at hsub
      obtain ⟨⟨hs, ht⟩, hreq⟩ := hsub
      have hlog : c.log = c.log.take 20 ++ e :: l₂ := hl ▸ (List.take_append_drop 20 c.log).symm
      obtain ⟨x, hx, hr⟩ := hrem _ e l₂ hlog hs hreq (by rw [ht]; exact returned_iff.mp hdone)
        fun hm => by simpa [Event.isHalt] using List.all_eq_true.mp hhalt _ hm
      exact ⟨x, List.mem_of_mem_take hx, ht ▸ hr⟩
    · cases hsub

end AsyncGateway
