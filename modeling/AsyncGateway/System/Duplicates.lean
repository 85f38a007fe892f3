import AsyncGateway.System.Recreate

/-!
# System — no task is created twice

A create call leaves only when every earlier one of the task is accounted for: answered with what
creates nothing, or disproved by a query that was sent after the call had ended
(`no_duplicate_create`).  That takes care where a task in doubt is opened again: the query must
have left while nobody was submitting, and nobody may have claimed the intent since
(`undisturbed`).
-/

namespace AsyncGateway

open TaskStatus
open Interleave

variable {C : Container} {t : ResolvedTemplate}

/-! ### What the log says of a create call -/

/-- The handler's confirmation query leaves. -/
def queries (u : ℕ) : Happening → Bool
  | .act v (.send .confirm _) (.ok _) => decide (v = u)
  | _ => false

/-- The query of `u` was sent after the create call of `v` had ended. -/
def asked : Log → ℕ → ℕ → Prop
  | [], _, _ => False
  | e :: l, u, v => queries u e = true ∧ ended l v ∨ asked l u v

/-- A query that was sent after the create call of `v` had ended was denied. -/
def disproved : Log → ℕ → Prop
  | [], _ => False
  | e :: l, v => isDenial e = true ∧ asked l e.thread v ∨ disproved l v

/-- Nothing was created: 429, 401 or 403, or there was no connection. -/
def Classification.notCreated (c : Classification) : Prop :=
  c.refunds ∨ c.errorClass = .retrySafe

/-- The create call of `v` is known to have created nothing. -/
def cleared (l : Log) (v : ℕ) : Prop :=
  (∃ r c, answered l v r ∧ createClass r = some c ∧ c.notCreated) ∨ disproved l v

/-- The create call of `u` has left, and has not ended. -/
def inFlight (l : Log) (u : ℕ) : Prop := u ∈ creators l ∧ ¬ ended l u

/-- No submission is under way. -/
def calm (C : Container) (t : ResolvedTemplate) (l : Log) : Prop :=
  ∀ v, ¬ (phase C t l v).stage.underWay

/-- The query of `u` left while no submission was under way, and no intent was claimed since. -/
def undisturbed (C : Container) (t : ResolvedTemplate) : Log → ℕ → Prop
  | [], _ => False
  | e :: l, u => queries u e = true ∧ calm C t l ∨ isClaim e = false ∧ undisturbed C t l u

/-- The task is opened again on a denial only, and one to an undisturbed query. -/
def reopensSafely (C : Container) (t : ResolvedTemplate) : (gateway C t).Condition :=
  fun w l u o r => opensOnDenial C t w l u o r ∧
    (isReopen (.act u o r) = true → undisturbed C t l u)

/-- A handler that did nothing is under way with nothing. -/
theorem calm_iff {l : Log} :
    calm C t l ↔ ∀ e ∈ l, ¬ (phase C t l e.thread).stage.underWay := by
  refine ⟨fun h e _ => h e.thread, fun h v hv => ?_⟩
  by_cases hm : ∃ e ∈ l, e.thread = v
  · obtain ⟨e, he, rfl⟩ := hm
    exact h e he hv
  · have hidle : phase C t l v = { stage := .gone } :=
      Protocol.after_of_fresh fun e he ht => hm ⟨e, he, ht⟩
    rw [hidle] at hv
    exact hv

instance : DecidablePred Stage.underWay := fun s =>
  decidable_of_iff (s.side = .holding ∨ s.side = .sent) underWay_iff.symm

instance (l : Log) (u : ℕ) : Decidable (inFlight l u) :=
  inferInstanceAs (Decidable (_ ∧ ¬ ∃ e ∈ l, ends u e = true))

instance (l : Log) : Decidable (calm C t l) := decidable_of_iff _ calm_iff.symm

instance decidableUndisturbed : (l : Log) → (u : ℕ) → Decidable (undisturbed C t l u)
  | [], _ => isFalse id
  | e :: l, u =>
      have := decidableUndisturbed l u
      inferInstanceAs (Decidable (queries u e = true ∧ calm C t l ∨
        isClaim e = false ∧ undisturbed C t l u))

theorem cleared.cons {l : Log} {v : ℕ} (h : cleared l v) (e : Happening) : cleared (e :: l) v :=
  h.imp (fun ⟨r, c, hr, hc⟩ => ⟨r, c, List.mem_cons_of_mem _ hr, hc⟩) .inr

theorem ended_of_calm {l : Log} (hl : Ledger C t l) (h : calm C t l) :
    ∀ v ∈ creators l, ended l v := by
  intro v hv
  obtain hs | he := hl.accounted v hv
  · exact absurd (by rw [hs]; trivial) (h v)
  · exact he

/-! ### The invariant -/

/-- The intent can be claimed. -/
def AsyncTask.claimable (row : AsyncTask) : Prop :=
  row.status = accepted ∧ row.submitStartedAt = none

/-- At most one submission is under way, and what may lead to the next one has cleared every create
call before it. -/
structure Exclusive (C : Container) (t : ResolvedTemplate) (w : World) (l : Log) : Prop where
  exclusive : ∀ u v, (phase C t l u).stage.underWay → (phase C t l v).stage.underWay → u = v
  intent : ∀ u, (phase C t l u).stage.underWay → ¬ w.row.claimable
  others : ∀ u, (phase C t l u).stage.underWay → ∀ v ∈ creators l, v ≠ u → cleared l v
  opened : w.row.claimable → ∀ v ∈ creators l, cleared l v
  rest : ∀ u, undisturbed C t l u → calm C t l
  inquired : ∀ u, (phase C t l u).stage.inquired → undisturbed C t l u →
    ∀ v ∈ creators l, asked l u v
  told : ∀ u c, Concluded C (phase C t l u) c → c.upstreamId = none → undisturbed C t l u →
    ∀ v ∈ creators l, disproved l v
  calls : ∀ l₁ e l₂, l = l₁ ++ e :: l₂ → isCreate e = true → ∀ v ∈ creators l₂, cleared l₂ v

section Act

variable {w w' : World} {l : Log} {u : ℕ} {o : Op} {γ : Choice} {r : Except Exn o.Ans}

theorem calls_cons {e : Happening}
    (h : ∀ l₁ e l₂, l = l₁ ++ e :: l₂ → isCreate e = true → ∀ v ∈ creators l₂, cleared l₂ v)
    (he : isCreate e = true → ∀ v ∈ creators l, cleared l v) :
    ∀ l₁ e' l₂, e :: l = l₁ ++ e' :: l₂ → isCreate e' = true → ∀ v ∈ creators l₂, cleared l₂ v := by
  rintro (- | ⟨x, l₁⟩) e' l₂ heq hc
  · obtain ⟨rfl, rfl⟩ := List.cons.inj heq
    exact he hc
  · obtain ⟨-, heq⟩ := List.cons.inj heq
    exact h l₁ e' l₂ heq hc

/-- What opens the intent to a claim: a release by a handler that holds it, or a reopening. -/
theorem claimable_of_act (ha : Allowed C t (phase C t l u) o) (hw : respond w o γ = some (r, w'))
    (h : w'.row.claimable) :
    w.row.claimable ∨
      (∃ expected decrement, AllowedRelease (phase C t l u) expected decrement ∧
        ((phase C t l u).next o r).stage = .spent) ∨
      isReopen (.act u o r) = true ∧
        ∃ c, Concluded C (phase C t l u) c ∧ nonEmpty c.upstreamId = none := by
  obtain ⟨-, hrow⟩ | ⟨op, hh, hop, hchange, -⟩ := move_cases (u := u) ha hw
  · exact .inl (hrow ▸ h)
  · -- a write that keeps the intent, and comes from an accepted task
    have same : w'.row.submission.submitStartedAt = w.row.submission.submitStartedAt →
        w.row.status = w'.row.status → w.row.claimable :=
      fun hi hs => ⟨hs.trans h.1, hi.symm.trans h.2⟩
    cases hchange with
    | claimed src unclaimed dst submission reported => exact .inl ⟨src, unclaimed⟩
    | submitted src held dst submission reported => exact absurd h.1 (by simp [dst])
    | relocated src given dst submission reported => exact absurd h.1 (by simp [dst])
    | doubted src dst submission reported => exact absurd h.1 (by simp [dst])
    | moved edge src dst closed submission reported => exact absurd (dst ▸ h.1) closed
    | reopened src dst submission reported =>
        obtain ⟨-, -, c, hc, hid⟩ := hop
        exact .inr (.inr ⟨by simp [isReopen, hh], c, hc, hid⟩)
    | released src dst submission reported =>
        obtain ⟨also, he⟩ := hit_eq_some hh
        cases he
        exact .inr (.inl ⟨_, _, hop.2, rfl⟩)
    | flagged src dst submission reported => exact .inl (same (by rw [submission]) dst.symm)
    | recorded src dst submission reported => exact .inl (same (by rw [submission]) dst.symm)
    | kept still dst submission reported => exact .inl (same (by rw [submission]) dst.symm)

/-- A handler that comes to be under way claims the intent. -/
theorem underWay_next (ha : Allowed C t (phase C t l u) o)
    (hc : isClaim (.act u o r) = false)
    (h : ((phase C t l u).next o r).stage.underWay) : (phase C t l u).stage.underWay := by
  have turn := turn_cases (u := u) (r := r) ha
  generalize (Local.next (phase C t l u) o r).stage = s at turn h
  generalize (.act u o r : Happening) = e at turn hc
  cases turn with
  | stay quiet => exact h
  | claim hs => cases hc
  | create hs => rw [hs]; trivial
  | answer hs => rw [hs]; trivial
  | submitted _ _ => split at h <;> exact h.elim
  | _ => exact h.elim

/-- The release of an intent leaves the own create call cleared, if it was sent. -/
theorem cleared_of_release (hl : Ledger C t l) {expected : List TaskStatus} {decrement : Bool}
    (h : AllowedRelease (phase C t l u) expected decrement) :
    (phase C t l u).stage.underWay ∧ (u ∈ creators l → cleared l u) := by
  obtain ⟨-, -, hs⟩ | ⟨-, a, c, hs, hc, hd⟩ := h
  · refine ⟨by rw [hs]; trivial, fun hm => ?_⟩
    exact absurd hm (hl.holding u (by rw [hs]; rfl)).2.1
  · refine ⟨by rw [hs]; trivial, fun _ => .inl ⟨a, c, hl.told u a hs, hc, ?_⟩⟩
    exact hd.imp (fun h => h.2) fun h => h.2

/-- What is undisturbed after an event was so before, or was asked just now. -/
theorem undisturbed_cons {e : Happening} {v : ℕ} (h : undisturbed C t (e :: l) v) :
    queries v e = true ∧ calm C t l ∨ isClaim e = false ∧ undisturbed C t l v := h

theorem creators_of_not {e : Happening} (he : isCreate e = false) : creators (e :: l) = creators l := by
  rw [creators, doers_cons, he]
  rfl

theorem thread_of_queries {e : Happening} {v : ℕ} (h : queries v e = true) : e.thread = v := by
  unfold queries at h
  split at h
  · exact of_decide_eq_true h
  · cases h

/-- Who queries has no submission and no confirmation behind it. -/
theorem free_of_queries {v : ℕ} (ha : Allowed C t (phase C t l u) o)
    (h : queries v (.act u o r) = true) : (phase C t l u).stage = .free := by
  unfold queries at h
  split at h
  · rename_i he
    cases he
    exact ha.1
  · cases h

/-- A claim finds every create call cleared, and leaves nothing undisturbed. -/
theorem Exclusive.claim (h : Exclusive C t w l) (ha : Allowed C t (phase C t l u) o)
    (hw : respond w o γ = some (r, w')) (hc : isClaim (.act u o r) = true) :
    Exclusive C t w' (.act u o r :: l) := by
  obtain ⟨hclaimable, hstarted, hcreate, hquery⟩ : w.row.claimable ∧
      w'.row.submitStartedAt ≠ none ∧ isCreate (.act u o r) = false ∧
        ∀ v, queries v (.act u o r) = false := by
    obtain ⟨hh, -⟩ | ⟨op, hh, -, hchange, -⟩ := move_cases (u := u) ha hw
    · simp [isClaim, hh] at hc
    · obtain ⟨also, he⟩ := hit_eq_some hh
      cases he
      cases hchange with
      | claimed src unclaimed dst submission reported =>
          have hstarted : w'.row.submitStartedAt = some _ :=
            congrArg Submission.submitStartedAt submission
          exact ⟨⟨src, unclaimed⟩, by simp [hstarted], rfl, fun _ => rfl⟩
      | kept still dst submission reported => simp [isClaim_of_still hh still] at hc
      | _ => cases hc
  have hcalm : calm C t l := fun v hv => h.intent v hv hclaimable
  have stale : ∀ v, ¬ undisturbed C t (.act u o r :: l) v := by
    intro v hv
    obtain ⟨hq, -⟩ | ⟨hn, -⟩ := undisturbed_cons hv
    · simp [hquery v] at hq
    · simp [hc] at hn
  -- only the one that claims is under way
  have only : ∀ v, (phase C t (.act u o r :: l) v).stage.underWay → v = u := by
    intro v hv
    by_contra hne
    rw [phase_act, if_neg hne] at hv
    exact hcalm v hv
  have creates := creators_of_not (l := l) hcreate
  constructor
  case exclusive => exact fun v v' hv hv' => (only v hv).trans (only v' hv').symm
  case intent => exact fun v _ hn => hstarted hn.2
  case others =>
    rw [creates]
    exact fun v _ v' hv' _ => (h.opened hclaimable v' hv').cons _
  case opened => exact fun hn => absurd hn.2 hstarted
  case rest => exact fun v hv => absurd hv (stale v)
  case inquired => exact fun v _ hv => absurd hv (stale v)
  case told => exact fun v c _ _ hv => absurd hv (stale v)
  case calls => exact calls_cons h.calls (by simp [hcreate])

/-- A create call leaves where every other one is cleared. -/
theorem Exclusive.create (hl : Ledger C t l) (h : Exclusive C t w l)
    (ha : Allowed C t (phase C t l u) o) (hw : respond w o γ = some (r, w'))
    (hc : isCreate (.act u o r) = true) : Exclusive C t w' (.act u o r :: l) := by
  obtain ⟨hs, hrow, hclaim, hquery, hnext⟩ : (phase C t l u).stage = .claimed ∧ w'.row = w.row ∧
      isClaim (.act u o r) = false ∧ (∀ v, queries v (.act u o r) = false) ∧
        ((phase C t l u).next o r).stage.underWay := by
    cases o with
    | send p request =>
        cases p with
        | create => exact ⟨ha, reply_row (respond_eq_some hw) (by simp), rfl, fun _ => rfl, trivial⟩
        | _ => cases hc
    | _ => cases hc
  have hu : (phase C t l u).stage.underWay := by rw [hs]; trivial
  have stale : ∀ v, ¬ undisturbed C t (.act u o r :: l) v := by
    intro v hv
    obtain ⟨hq, -⟩ | ⟨-, hv⟩ := undisturbed_cons hv
    · simp [hquery v] at hq
    · exact h.rest v hv u hu
  have only : ∀ v, (phase C t (.act u o r :: l) v).stage.underWay → v = u := by
    intro v hv
    by_contra hne
    rw [phase_act, if_neg hne] at hv
    exact hne (h.exclusive v u hv hu)
  have grown : ∀ v ∈ creators (.act u o r :: l), v = u ∨ v ∈ creators l := by
    intro v hv
    rw [creators, doers_cons, if_pos hc] at hv
    exact List.mem_cons.mp hv
  -- it has not sent one yet, so every other create call is another's
  have fresh : u ∉ creators l := (hl.holding u (by rw [hs]; rfl)).2.1
  have others : ∀ v ∈ creators l, cleared l v := fun v hv =>
    h.others u hu v hv fun he => fresh (he ▸ hv)
  constructor
  case exclusive => exact fun v v' hv hv' => (only v hv).trans (only v' hv').symm
  case intent =>
    rw [hrow]
    exact fun _ _ => h.intent u hu
  case others =>
    intro v hv v' hv' hne
    rw [only v hv] at hne
    exact (others v' ((grown v' hv').resolve_left hne)).cons _
  case opened =>
    rw [hrow]
    exact fun hn => absurd hn (h.intent u hu)
  case rest => exact fun v hv => absurd hv (stale v)
  case inquired => exact fun v _ hv => absurd hv (stale v)
  case told => exact fun v c _ _ hv => absurd hv (stale v)
  case calls => exact calls_cons h.calls fun _ => others

/-- What neither claims nor creates: what was cleared stays so, a release clears the own create
call, a reopening all of them. -/
theorem Exclusive.quiet (hl : Ledger C t l) (h : Exclusive C t w l)
    (ha : Allowed C t (phase C t l u) o) (hw : respond w o γ = some (r, w'))
    (hg : reopensSafely C t w l u o r) (hc : isClaim (.act u o r) = false)
    (hn : isCreate (.act u o r) = false) : Exclusive C t w' (.act u o r :: l) := by
  have creates := creators_of_not (l := l) hn
  have before : ∀ v, (phase C t (.act u o r :: l) v).stage.underWay →
      (phase C t l v).stage.underWay :=
    everyone_act (p := fun v l' => l'.stage.underWay → (phase C t l v).stage.underWay)
      (underWay_next ha hc) fun v => id
  have calm_cons : calm C t l → calm C t (.act u o r :: l) := fun hcalm v hv => hcalm v (before v hv)
  have opened := claimable_of_act ha hw
  constructor
  case exclusive => exact fun v v' hv hv' => h.exclusive v v' (before v hv) (before v' hv')
  case intent =>
    intro v hv hclaimable
    -- the intent was free before, was given back by the one under way, or is opened again
    obtain hclaimable | ⟨expected, decrement, hrel, hs⟩ | ⟨hre, -⟩ := opened hclaimable
    · exact h.intent v (before v hv) hclaimable
    · have huv := h.exclusive v u (before v hv) (cleared_of_release hl hrel).1
      subst huv
      rw [phase_act, if_pos rfl, hs] at hv
      exact hv
    · exact h.rest u (hg.2 hre) v (before v hv)
  case others =>
    rw [creates]
    exact fun v hv v' hv' hne => (h.others v (before v hv) v' hv' hne).cons _
  case opened =>
    rw [creates]
    intro hclaimable v hv
    obtain hclaimable | ⟨expected, decrement, hrel, hs⟩ | ⟨hre, c, hconc, hid⟩ := opened hclaimable
    · exact (h.opened hclaimable v hv).cons _
    · obtain ⟨hu, hown⟩ := cleared_of_release hl hrel
      -- the release clears the own create call, and the others were cleared before
      by_cases hvu : v = u
      · subst hvu
        exact (hown hv).cons _
      · exact (h.others u hu v hv hvu).cons _
    · exact .inr (.inr (h.told u c hconc (hconc.upstreamId hid (hg.1 hre)) (hg.2 hre) v hv))
  case rest =>
    intro v hv
    obtain ⟨-, hcalm⟩ | ⟨-, hv⟩ := undisturbed_cons hv
    · exact calm_cons hcalm
    · exact calm_cons (h.rest v hv)
  case inquired =>
    rw [creates]
    intro v hs hv v' hv'
    obtain ⟨hq, hcalm⟩ | ⟨-, hfresh⟩ := undisturbed_cons hv
    · exact .inl ⟨hq, ended_of_calm hl hcalm v' hv'⟩
    · by_cases hvu : v = u
      · subst hvu
        rw [phase_act, if_pos rfl] at hs
        obtain hs | ⟨-, request, he⟩ := inquired_next (u := v) ha hs
        · exact .inr (h.inquired v hs hfresh v' hv')
        · refine .inl ⟨?_, ended_of_calm hl (h.rest v hfresh) v' hv'⟩
          rw [he]
          simp [queries]
      · rw [phase_act, if_neg hvu] at hs
        exact .inr (h.inquired v hs hfresh v' hv')
  case told =>
    rw [creates]
    intro v c hconc hid hv v' hv'
    by_cases hvu : v = u
    · subst hvu
      rw [phase_act, if_pos rfl] at hconc
      obtain ⟨row, bearer, a, t', hs, ht, hverdict, hconf⟩ := hconc
      obtain hs | ⟨hs, -, -, he⟩ := told_next (u := v) ha hs
      · obtain ⟨hq, -⟩ | ⟨-, hfresh⟩ := undisturbed_cons hv
        · exact absurd hs (free_of_queries ha hq ▸ by simp)
        · exact .inr (h.told v c ⟨row, bearer, a, t', hs, ht, hverdict, hconf⟩ hid hfresh v' hv')
      · obtain ⟨hq, -⟩ | ⟨-, hfresh⟩ := undisturbed_cons hv
        · exact absurd hs (free_of_queries ha hq ▸ by simp)
        · rw [he]
          exact .inl ⟨verdict_denial hverdict hconf hid v, h.inquired v (by rw [hs]; trivial) hfresh v' hv'⟩
    · rw [phase_act, if_neg hvu] at hconc
      obtain ⟨hq, -⟩ | ⟨-, hfresh⟩ := undisturbed_cons hv
      · exact absurd (thread_of_queries hq) (Ne.symm hvu)
      · exact .inr (h.told v c hconc hid hfresh v' hv')
  case calls => exact calls_cons h.calls (by simp [hn])

theorem Exclusive.act (hl : Ledger C t l) (h : Exclusive C t w l)
    (ha : Allowed C t (phase C t l u) o) (hw : respond w o γ = some (r, w'))
    (hg : reopensSafely C t w l u o r) : Exclusive C t w' (.act u o r :: l) := by
  by_cases hc : isClaim (.act u o r) = true
  · exact h.claim ha hw hc
  · by_cases hn : isCreate (.act u o r) = true
    · exact h.create hl ha hw hn
    · exact h.quiet hl ha hw hg (by simpa using hc) (by simpa using hn)

end Act

/-- A start or a stop brings nobody under way, and lets nobody ask or hear. -/
theorem Exclusive.calmer {w : World} {l : Log} {e : Happening} (h : Exclusive C t w l)
    (hn : isCreate e = false) (hq : ∀ v, queries v e = false)
    (hp : ∀ v, (phase C t (e :: l) v).stage = (phase C t l v).stage ∨
      (phase C t (e :: l) v).stage = .free ∨ (phase C t (e :: l) v).stage = .gone) :
    Exclusive C t w (e :: l) := by
  have creates := creators_of_not (l := l) hn
  -- nobody comes under way
  have before : ∀ v, (phase C t (e :: l) v).stage.underWay → (phase C t l v).stage.underWay := by
    intro v hv
    rcases hp v with hs | hs | hs
    · exact hs ▸ hv
    · rw [hs] at hv
      exact hv.elim
    · rw [hs] at hv
      exact hv.elim
  have fresh : ∀ v, undisturbed C t (e :: l) v → undisturbed C t l v := by
    intro v hv
    obtain ⟨hq', -⟩ | ⟨-, hv⟩ := undisturbed_cons hv
    · simp [hq v] at hq'
    · exact hv
  constructor
  case exclusive => exact fun v v' hv hv' => h.exclusive v v' (before v hv) (before v' hv')
  case intent => exact fun v hv => h.intent v (before v hv)
  case others =>
    rw [creates]
    exact fun v hv v' hv' hne => (h.others v (before v hv) v' hv' hne).cons _
  case opened =>
    rw [creates]
    exact fun hclaimable v hv => (h.opened hclaimable v hv).cons _
  case rest => exact fun v hv v' hv' => h.rest v (fresh v hv) v' (before v' hv')
  case inquired =>
    rw [creates]
    intro v hs hv v' hv'
    rcases hp v with he | he | he
    · exact .inr (h.inquired v (he ▸ hs) (fresh v hv) v' hv')
    · rw [he] at hs
      exact hs.elim
    · rw [he] at hs
      exact hs.elim
  case told =>
    rw [creates]
    rintro v c ⟨row, bearer, a, t', hs, hc⟩ hid hv v' hv'
    rcases hp v with he | he | he
    · exact .inr (h.told v c ⟨row, bearer, a, t', he.symm.trans hs, hc⟩ hid (fresh v hv) v' hv')
    · cases he.symm.trans hs
    · cases he.symm.trans hs
  case calls => exact calls_cons h.calls (by simp [hn])

theorem exclusive_inserted {w : World} : Exclusive C t w [] := by
  constructor
  · exact fun u v hu => hu.elim
  · exact fun u hu => hu.elim
  · exact fun u hu => hu.elim
  · exact fun _ v hv => by cases hv
  · exact fun u hu => hu.elim
  · exact fun u hu => hu.elim
  · rintro u c ⟨row, bearer, a, t', hs, -⟩
    cases hs
  · rintro (- | ⟨x, l₁⟩) e l₂ heq - <;> cases heq

theorem Exclusive.spawn {w : World} {l : Log} (h : Exclusive C t w l) (u : ℕ) (κ : Work) :
    Exclusive C t w (.spawn u κ :: l) := by
  refine h.calmer rfl (fun _ => rfl) fun v => ?_
  rw [phase_spawn]
  split
  · exact .inr (.inl rfl)
  · exact .inl rfl

theorem Exclusive.halt {w : World} {l : Log} (h : Exclusive C t w l) (u : ℕ) :
    Exclusive C t w (.halt u :: l) := by
  refine h.calmer rfl (fun _ => rfl) fun v => ?_
  rw [phase_halt]
  split
  · exact .inr (.inr rfl)
  · exact .inl rfl

theorem exclusive_run {w : World} {c : Config (gateway C t)}
    (h : Run (reopensSafely C t) ((gateway C t).initial w) c) : Exclusive C t c.world c.log :=
  gateway_invariant (Exclusive C t) exclusive_inserted (fun _ _ u κ _ _ h => h.spawn u κ)
    (fun _ _ _ _ _ _ _ hl h ha hw hg => h.act hl ha hw hg) (fun _ _ u _ h => h.halt u) h

/-- **No duplicate create.**  In every run that opens a task again only on a denial of a query that
was undisturbed, a create call leaves only when every earlier one is known to have created nothing;
so at most one is in flight. -/
theorem no_duplicate_create {w : World} {c : Config (gateway C t)}
    (h : Run (reopensSafely C t) ((gateway C t).initial w) c) :
    (∀ l₁ e l₂, c.log = l₁ ++ e :: l₂ → isCreate e = true → ∀ v ∈ creators l₂, cleared l₂ v) ∧
      ∀ u v, inFlight c.log u → inFlight c.log v → u = v := by
  have he := exclusive_run h
  refine ⟨he.calls, fun u v hu hv => ?_⟩
  have under : ∀ u, inFlight c.log u → (phase C t c.log u).stage.underWay := by
    rintro u ⟨hu, hn⟩
    rw [((ledger_run h).accounted u hu).resolve_right hn]
    trivial
  exact he.exclusive u v (under u hu) (under v hv)

/-- The first create call is slow: the inspector gives it up, the query is denied, and the task is
submitted again while the call is still in flight. -/
def slowCreate {t : ResolvedTemplate} : Script t :=
  submitting 0 0 ++ goesOn 0 0 [.done] ++
    .spawn (.scanAcceptedStalls 60) :: goesOn 1 100 [.done, .done, .done, .done] ++
    .spawn .compensateOrphan ::
      goesOn 2 100 [.done, .done, .text (some "key"), .text none, .done,
        .upstream (.ok { statusCode := 404 }), .done, .done, .done, .done] ++
    submitting 3 100 ++ goesOn 3 100 [.done]

theorem duplicate_create :
    ∃ c, Run (gateway (sampleContainer sampleTemplate) sampleTemplate).anything
        (sampleStart sampleTemplate sampleRow) c ∧ inFlight c.log 0 ∧ inFlight c.log 3 := by
  obtain ⟨c, hrun, hc⟩ := reached (t := sampleTemplate) sampleRow slowCreate
    (fun _ _ _ _ _ => true) (fun c => decide (inFlight c.log 0 ∧ inFlight c.log 3))
    (fun _ _ _ _ _ _ => trivial) (by decide +kernel)
  exact ⟨c, hrun, of_decide_eq_true hc⟩

/-- Whether a task is opened again only on an answer without success to an undisturbed query. -/
def reopensOnRefusal (C : Container) (t : ResolvedTemplate) : (gateway C t).Check :=
  fun w l u o r => opensOnRefusal C t w l u o r &&
    (!isReopen (.act u o r) || decide (undisturbed C t l u))

theorem reopensSafely_of_refusal {w : World} {l : Log} {u : ℕ} {o : Op} {r : Except Exn o.Ans}
    (h : reopensOnRefusal C t w l u o r = true) : reopensSafely C t w l u o r := by
  obtain ⟨h₁, h₂⟩ := Bool.and_eq_true_iff.mp h
  exact ⟨opensOnDenial_of_refusal h₁, fun he => by simpa [he] using h₂⟩

theorem no_duplicate_create_sample :
    ∃ c, Run (reopensSafely (sampleContainer sampleTemplate) sampleTemplate)
        (sampleStart sampleTemplate sampleRow) c ∧ creators c.log = [2, 0] ∧
      ∀ l₁ e l₂, c.log = l₁ ++ e :: l₂ → isCreate e = true → ∀ v ∈ creators l₂, cleared l₂ v := by
  obtain ⟨c, hrun, hc⟩ := reached (t := sampleTemplate) sampleRow
    (claimedAgain { statusCode := 404 } ++ goesOn 2 0 [.text none, .done]) (reopensOnRefusal _ _)
    (fun c => decide (creators c.log = [2, 0])) (fun _ _ _ _ _ => reopensSafely_of_refusal)
    (by decide +kernel)
  exact ⟨c, hrun, of_decide_eq_true hc, (no_duplicate_create hrun).1⟩

end AsyncGateway
