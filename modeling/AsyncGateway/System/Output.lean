import AsyncGateway.Gateway.Shown
import AsyncGateway.System.Attempts

/-!
# System — what a client sees of a task

The value at the status field of a query answer, over a whole run.  A task that has ended shows a
value of its class (`terminal_shows_class`), and a value of a terminal class is never taken back
(`shown_monotone`), as long as the upstream's terminal values are recorded only with the end of the
task they report.
-/

namespace AsyncGateway

open TaskStatus
open Interleave

variable {C : Container} {t : ResolvedTemplate} {ks : List String} {task : AsyncTask}
variable {url : Option String} {snapshot : Json.Fields}

/-! ### A task that has ended -/

/-- Where the state takes the raw status as it is, the snapshot has no other. -/
def Agrees (task : AsyncTask) (t : ResolvedTemplate) (ks : List String)
    (snapshot : Json.Fields) : Prop :=
  (effectiveStatusValue task t).2 = false → ∀ v,
    extract (.obj snapshot) (ks.map .key) = some v → v = .str (effectiveStatusValue task t).1

theorem shownOf_of_agrees (h : Agrees task t ks snapshot) :
    shownOf task t (ks.map .key) snapshot = .str (effectiveStatusValue task t).1 := by
  unfold shownOf
  by_cases hr : (effectiveStatusValue task t).2 = true
  · rw [if_pos hr]
  · rw [if_neg hr]
    cases hv : extract (.obj snapshot) (ks.map .key) with
    | none => rfl
    | some v => exact h (by simpa using hr) v hv

/-- **A task that has ended shows a value of its class**: at a status field of keys, of a snapshot
that is an object, which has no other status than the recorded one where that one is shown as it
is. -/
theorem terminal_shows_class (t : AcceptedTemplate) (h : StatusApart t.toResolvedTemplate ks)
    (hs : task.status ∈ businessTerminal) (hdoc : nativeSnapshot task = .obj snapshot)
    (ha : Agrees task t.toResolvedTemplate ks snapshot) :
    ∃ s, shownStatus C task t.toResolvedTemplate url = some (.str s) ∧
      (task.status = succeeded → s ∈ t.terminal.success) ∧
        (task.status ≠ succeeded → failureClass t.toResolvedTemplate s) := by
  refine ⟨(effectiveStatusValue task t.toResolvedTemplate).1, ?_,
    effective_success t.success_ne_nil, effective_failure hs⟩
  rw [shownStatus_obj h hdoc, shownOf_of_agrees ha]

/-- The upstream answers a poll with an array, and the task is closed for a human. -/
def closedOnArray {t : ResolvedTemplate} : Script t :=
  created [] ++ polled 1 (.arr [.int 1]) ++ goesOn 1 0 [.done, .done, .done, .done, .done] ++
    .spawn (.boundUnknowns 0 false) :: goesOn 2 0 [.done, .done, .done]

theorem terminal_shows_nothing :
    ∃ c, Run (gateway (sampleContainer sampleTemplate) sampleTemplate).anything
        (sampleStart sampleTemplate sampleRow) c ∧
      c.world.row.status = deadAwaitingConfirm ∧ c.world.row.status ∈ businessTerminal ∧
        shownStatus (sampleContainer sampleTemplate) c.world.row acceptedSample.toResolvedTemplate
          none = none := by
  obtain ⟨c, hrun, hc⟩ := reached (t := sampleTemplate) sampleRow closedOnArray
    (fun _ _ _ _ _ => true)
    (fun c => decide (c.world.row.status = deadAwaitingConfirm) &&
      (shownStatus (sampleContainer sampleTemplate) c.world.row acceptedSample.toResolvedTemplate
        none).isNone)
    (fun _ _ _ _ _ _ => trivial) (by decide +kernel)
  obtain ⟨hs, hn⟩ := Bool.and_eq_true_iff.mp hc
  have hs : c.world.row.status = deadAwaitingConfirm := of_decide_eq_true hs
  exact ⟨c, hrun, hs, hs ▸ by decide, Option.isNone_iff_eq_none.mp hn⟩

theorem statusApart_sample (hs : t.statusField = "$.status") (hr : t.resultLocation = "$.url")
    (he : t.terminal.errorField = none) : StatusApart t ["status"] where
  ne_nil := by decide
  status := by
    rw [hs]
    rfl
  result _ := ⟨[.key "url"], by rw [hr]; rfl, by decide⟩
  error f hf := by
    rw [he] at hf
    cases hf

/-- A row that was cancelled after the upstream reported a failure. -/
def cancelledRow : AsyncTask :=
  { sampleRow with
    status := cancelled
    rawStatus := some "failed"
    statusSnapshot := some (.obj [("status", .str "failed")]) }

theorem terminal_shows_class_cancelled :
    ∃ s, shownStatus (sampleContainer sampleTemplate) cancelledRow acceptedSample.toResolvedTemplate
        none = some (.str s) ∧
      (cancelledRow.status = succeeded → s ∈ acceptedSample.terminal.success) ∧
        (cancelledRow.status ≠ succeeded → failureClass acceptedSample.toResolvedTemplate s) :=
  terminal_shows_class acceptedSample (statusApart_sample rfl rfl rfl) (by decide) rfl
    fun _ v hv => (Option.some.inj hv).symm

/-! ### What an unfinished task shows -/

/-- The values that tell an end. -/
def terminalValue (t : ResolvedTemplate) (s : String) : Prop :=
  s ∈ t.terminal.success ∨ failureClass t s

/-- The raw status a write records while the task goes on. -/
def DaoOp.running : DaoOp → Option String
  | .markSubmitted _ rawStatus _ _ _ => rawStatus
  | .recordPollResult _ rawStatus _ _ => rawStatus
  | _ => none

/-- What is recorded while the task goes on is no terminal value, and nothing is recorded of a
failed task. -/
def recordsRunning (C : Container) (t : ResolvedTemplate) : (gateway C t).Condition :=
  fun w _ u o r => ∀ op, hit (.act u o r) = some op →
    (∀ n, op.running = some n → ¬ terminalValue t n) ∧
      ∀ snapshot rawStatus nextPollAt expected,
        op = .recordPollResult snapshot rawStatus nextPollAt expected → w.row.status ≠ failed

/-- The raw status of an unfinished task is what its snapshot reads, and no terminal value; that of
a failed task is a failure. -/
structure Consistent (t : ResolvedTemplate) (row : AsyncTask) : Prop where
  running : row.status ∉ businessTerminal → row.status ≠ failed → ∀ n, row.rawStatus = some n →
    ¬ terminalValue t n ∧ Reads t row.statusSnapshot n
  failed : row.status = TaskStatus.failed → ∀ n, row.rawStatus = some n →
    t.mapsStatus n = some TaskStatus.failed ∧ Reads t row.statusSnapshot n

section Step

variable {w w' : World} {l : Log} {u : ℕ} {o : Op} {γ : Choice} {r : Except Exn o.Ans}
variable {ref : String × ℕ}

/-- Every template a handler goes by is the one of the task. -/
theorem goesBy_eq {row : AsyncTask} (href : Templated C t row.templateRef w l)
    (ht : templateOf C row = some t) {t' : ResolvedTemplate} (h : GoesBy C t (phase C t l u) t') :
    t' = t := by
  obtain rfl | ⟨row', hm, ht'⟩ := h
  · rfl
  · rw [templateOf_congr (href.seen u row' hm), ht] at ht'
    exact (Option.some.inj ht').symm

theorem Consistent.kept {row row' : AsyncTask} (h : Consistent t row)
    (hr : row'.reported = row.reported)
    (hs : row'.status = row.status ∨ row'.status ≠ TaskStatus.failed ∧
      row.status ∉ businessTerminal ∧ row.status ≠ TaskStatus.failed) : Consistent t row' := by
  obtain ⟨hsnap, hraw⟩ := Reported.mk.inj hr
  obtain hs | ⟨hn, hb, hf⟩ := hs
  · constructor
    · rw [hs, hsnap, hraw]
      exact h.running
    · rw [hs, hsnap, hraw]
      exact h.failed
  · refine ⟨fun _ _ => ?_, fun hs => absurd hs hn⟩
    rw [hsnap, hraw]
    exact h.running hb hf

theorem Consistent.act {row : AsyncTask} (href : Templated C t row.templateRef w l)
    (ht : templateOf C row = some t) (h : Consistent t w.row)
    (ha : Allowed C t (phase C t l u) o) (hw : respond w o γ = some (r, w'))
    (hg : recordsRunning C t w l u o r) : Consistent t w'.row := by
  obtain ⟨-, hrow⟩ | ⟨op, hh, hop, hchange, -⟩ := move_cases (u := u) ha hw
  · rw [hrow]
    exact h
  · have goes : ∀ {t'}, GoesBy C t (phase C t l u) t' → t' = t := goesBy_eq href ht
    obtain ⟨hrun, hfail⟩ := hg op hh
    cases hchange with
    | claimed src unclaimed dst submission reported =>
        exact h.kept reported (.inl (dst.trans src.symm))
    | submitted src held dst submission reported =>
        obtain ⟨hsnap, hraw⟩ := Reported.mk.inj reported
        obtain ⟨rfl, -⟩ := hop
        refine ⟨fun _ _ n hn => ?_, fun hs => by simp [dst] at hs⟩
        rw [hraw] at hn
        rw [hsnap]
        exact ⟨hrun n hn, reads_none⟩
    | released src dst submission reported => exact h.kept reported (.inl dst)
    | reopened src dst submission reported =>
        exact h.kept reported (.inr (by rw [src, dst]; decide))
    | doubted src dst submission reported =>
        exact h.kept reported (.inr (by rw [src, dst]; decide))
    | relocated src given dst submission reported =>
        exact h.kept reported (.inr (by rw [src, dst]; decide))
    | flagged src dst submission reported => exact h.kept reported (.inl dst)
    | recorded src dst submission reported =>
        obtain ⟨hsnap, hraw⟩ := Reported.mk.inj reported
        have hnf := hfail _ _ _ _ rfl
        refine ⟨fun _ _ n hn => ?_, fun hs => absurd (dst ▸ hs) hnf⟩
        rw [hraw] at hn
        rw [hsnap]
        obtain ⟨t', ht', hreads⟩ := hop.2 n hn
        exact ⟨hrun n hn, goes ht' ▸ hreads⟩
    | @moved target expected values edge src dst closed submission reported =>
        -- of a task that has ended nothing is asked
        have finished : target ∈ businessTerminal → Consistent t w'.row := fun hb =>
          ⟨fun hn _ => absurd (dst ▸ hb) hn, fun hs => by
            rw [dst] at hs
            rw [hs] at hb
            exact absurd hb (by decide)⟩
        cases target with
        | accepted => exact absurd rfl closed
        | upstreamSubmitted => exact hop.elim
        | inProgress =>
            have hsrc : w.row.status ∉ businessTerminal ∧ w.row.status ≠ TaskStatus.failed := by
              revert edge
              cases w.row.status <;> decide
            exact h.kept (reported.trans (assign_reported hop.2))
              (.inr ⟨by simp [dst], hsrc⟩)
        | submitUnknown =>
            obtain ⟨⟨s, hs, rfl⟩, -, hsilent⟩ := hop
            have hsrc : w.row.status = s := List.mem_singleton.mp (src _ rfl)
            refine h.kept (reported.trans (assign_reported hsilent)) (.inr ⟨by simp [dst], ?_⟩)
            rw [hsrc]
            revert hs
            cases s <;> decide
        | pollUnrecognized =>
            obtain ⟨-, snapshot, hrec⟩ := hop
            obtain ⟨-, hraw⟩ := Reported.mk.inj (reported.trans (hrec w.row))
            refine ⟨fun _ _ n hn => ?_, fun hs => by simp [dst] at hs⟩
            -- a doubtful status is recorded as none
            simp [hraw] at hn
        | failed =>
            obtain ⟨-, snapshot, rawStatus, hrec, hmaps⟩ := hop
            obtain ⟨hsnap, hraw⟩ := Reported.mk.inj (reported.trans (hrec w.row))
            refine ⟨fun _ hn => absurd dst hn, fun _ n hn => ?_⟩
            rw [hraw] at hn
            rw [hsnap]
            obtain ⟨⟨t₁, ht₁, hm⟩, t₂, ht₂, hreads⟩ := hmaps n hn
            exact ⟨goes ht₁ ▸ hm, goes ht₂ ▸ hreads⟩
        | _ => exact finished (by decide)
    | kept still dst submission reported => exact h.kept reported (.inl dst)

end Step

/-! ### What is shown once stays -/

/-- The snapshot is an object, and what is shown of it is a value of the class. -/
def ShowsIn (t : ResolvedTemplate) (ks : List String) (K : String → Prop) (row : AsyncTask) : Prop :=
  ∃ snapshot s, nativeSnapshot row = .obj snapshot ∧
    shownOf row t (ks.map .key) snapshot = .str s ∧ K s

/-- A client reads a value of the class where the row shows one. -/
theorem shows_iff (h : StatusApart t ks) {K : String → Prop} :
    (∃ s, shownStatus C task t url = some (.str s) ∧ K s) ↔ ShowsIn t ks K task := by
  constructor
  · rintro ⟨s, hs, hk⟩
    by_cases hobj : ∃ snapshot, nativeSnapshot task = .obj snapshot
    · obtain ⟨snapshot, hsnap⟩ := hobj
      rw [shownStatus_obj h hsnap] at hs
      exact ⟨snapshot, s, hsnap, Option.some.inj hs, hk⟩
    · have hb : buildNativeQueryResponse C task t url = .ok (nativeSnapshot task) := by
        unfold buildNativeQueryResponse
        split
        · exact absurd ⟨_, ‹_›⟩ hobj
        · rfl
      obtain ⟨k, ks', rfl⟩ := List.exists_cons_of_ne_nil h.ne_nil
      simp only [shownStatus, hb, h.status] at hs
      obtain ⟨fs, node, hfs, -⟩ := Json.follow_key_eq_some hs
      exact absurd ⟨fs, hfs⟩ hobj
  · rintro ⟨snapshot, s, hsnap, hs, hk⟩
    exact ⟨s, by rw [shownStatus_obj h hsnap, hs], hk⟩

theorem effective_congr {row row' : AsyncTask} (hs : row'.status = row.status)
    (hr : row'.rawStatus = row.rawStatus) :
    effectiveStatusValue row' t = effectiveStatusValue row t := by
  unfold effectiveStatusValue
  rw [hs, hr]

/-- What is shown depends on the status, the raw status and the snapshot only. -/
theorem ShowsIn.congr {row row' : AsyncTask} {K : String → Prop} (h : ShowsIn t ks K row)
    (hs : row'.status = row.status) (hr : row'.reported = row.reported) : ShowsIn t ks K row' := by
  obtain ⟨snapshot, s, hsnap, hshown, hk⟩ := h
  obtain ⟨hsnap', hraw⟩ := Reported.mk.inj hr
  refine ⟨snapshot, s, ?_, ?_, hk⟩
  · rw [← hsnap, nativeSnapshot, nativeSnapshot, hsnap']
  · rw [← hshown, shownOf, shownOf, effective_congr hs hraw]

/-- A row of an end of the gateway's own shows the failure of the template. -/
theorem effective_dead {row : AsyncTask} (hs : row.status = dead ∨ row.status = deadAwaitingConfirm) :
    effectiveStatusValue row t = (t.effectiveFailureStatus, true) := by
  unfold effectiveStatusValue
  have hn : row.status ≠ succeeded ∧ row.status ≠ cancelled ∧ row.status ≠ timeout ∧
      isInternalTerminal row.status = true := by
    rcases hs with hs | hs <;> rw [hs] <;> decide
  rw [if_neg hn.1, if_neg hn.2.1, if_pos hn.2.2.2]
  split
  · rw [if_neg fun h => hn.2.2.1 h.1]
  · rfl

theorem shows_dead {row : AsyncTask} {K : String → Prop} (hk : K t.effectiveFailureStatus)
    (hs : row.status = dead ∨ row.status = deadAwaitingConfirm)
    (hobj : ∃ snapshot, nativeSnapshot row = .obj snapshot) : ShowsIn t ks K row := by
  obtain ⟨snapshot, hsnap⟩ := hobj
  exact ⟨snapshot, _, hsnap, by rw [shownOf, effective_dead hs, if_pos rfl], hk⟩

/-- What a dead end records of the upstream is an object, or nothing. -/
theorem object_of_dead {row row' : AsyncTask} {values : List Assign} {l : Local}
    (h : StatusApart t ks) (goes : ∀ t', GoesBy C t l t' → t' = t)
    (ha : Silent values ∨ ∃ snapshot rawStatus, Records values snapshot rawStatus ∧
      ∃ t', GoesBy C t l t' ∧ Documented t' snapshot)
    (hr : row'.reported = (assign row values).reported)
    (hobj : ∃ snapshot, nativeSnapshot row = .obj snapshot) :
    ∃ snapshot, nativeSnapshot row' = .obj snapshot := by
  obtain hsilent | ⟨snapshot, rawStatus, hrec, t', ht', hdoc⟩ := ha
  · obtain ⟨hsnap, -⟩ := Reported.mk.inj (hr.trans (assign_reported hsilent))
    obtain ⟨snapshot, hs⟩ := hobj
    exact ⟨snapshot, by rw [nativeSnapshot, hsnap]; exact hs⟩
  · obtain ⟨hsnap, -⟩ := Reported.mk.inj (hr.trans (hrec row))
    obtain ⟨k, ks', rfl⟩ := List.exists_cons_of_ne_nil h.ne_nil
    obtain ⟨doc, hdoc⟩ := hdoc k _ (goes t' ht' ▸ h.status)
    exact ⟨doc, by rw [nativeSnapshot, hsnap, hdoc]; rfl⟩

/-- A task that has ended keeps what it shows. -/
theorem ShowsIn.terminal {row row' : AsyncTask} {op : DaoOp} {l : Local} {K : String → Prop}
    (hap : StatusApart t ks) (goes : ∀ t', GoesBy C t l t' → t' = t) (ha : AllowedWrite C t l op)
    (hchange : Change row row' op) (ht : row.status ∈ businessTerminal) (h : ShowsIn t ks K row) :
    row'.status ∈ businessTerminal ∧ ShowsIn t ks K row' := by
  have out : ∀ s, row.status = s → s ∉ businessTerminal →
      row'.status ∈ businessTerminal ∧ ShowsIn t ks K row' := fun s he hn => absurd (he ▸ ht) hn
  have same : row'.status = row.status → row'.reported = row.reported →
      row'.status ∈ businessTerminal ∧ ShowsIn t ks K row' :=
    fun hs hr => ⟨hs ▸ ht, h.congr hs hr⟩
  cases hchange with
  | claimed src unclaimed dst submission reported => exact out _ src (by decide)
  | submitted src held dst submission reported => exact out _ src (by decide)
  | reopened src dst submission reported => exact out _ src (by decide)
  | doubted src dst submission reported => exact out _ src (by decide)
  | relocated src given dst submission reported => exact out _ src (by decide)
  | released src dst submission reported => exact same dst reported
  | flagged src dst submission reported => exact same dst reported
  | recorded src dst submission reported =>
      obtain ⟨⟨s, rfl, hs⟩, -⟩ := ha
      exact out s (List.mem_singleton.mp src) hs
  | kept still dst submission reported => exact same dst reported
  | @moved target expected values edge src dst closed submission reported =>
      obtain ⟨hsrc, rfl⟩ := edge_of_terminal ht edge
      obtain ⟨snapshot, s, hsnap, hshown, hk⟩ := h
      rw [shownOf, effective_dead (.inr hsrc), if_pos rfl] at hshown
      cases hshown
      refine ⟨by rw [dst]; decide, shows_dead hk (.inl dst) ?_⟩
      exact object_of_dead hap goes ha.2 reported ⟨snapshot, hsnap⟩

/-- The status to show of an unfinished task is its raw status, or the placeholder. -/
theorem effective_open {row : AsyncTask} (hs : row.status ∉ businessTerminal) :
    effectiveStatusValue row t = match row.rawStatus with
      | none => (pendingPlaceholderStatus, true)
      | some native => (native, false) := by
  have hn : row.status ≠ succeeded ∧ row.status ≠ cancelled ∧
      isInternalTerminal row.status = false := by
    revert hs
    cases row.status <;> decide
  cases hr : row.rawStatus <;> simp [effectiveStatusValue, hn.1, hn.2.1, hn.2.2, hr]

theorem assign_snapshot {row : AsyncTask} {values : List Assign}
    (h : ∀ a ∈ values, a.ofOutput = true → a = .rawStatus (some "cancelled")) :
    (assign row values).statusSnapshot = row.statusSnapshot := by
  refine assign_frame ?_ row
  intro a ha row
  have hset := h a ha
  cases a <;> first | rfl | cases hset rfl

/-- A failed task that shows a failure shows one when it is cancelled. -/
theorem ShowsIn.cancelled {row row' : AsyncTask} (hq : ¬ terminalValue t pendingPlaceholderStatus)
    (hs : row.status = TaskStatus.failed) (hs' : row'.status = TaskStatus.cancelled)
    (hsnap' : row'.statusSnapshot = row.statusSnapshot)
    (h : ShowsIn t ks (failureClass t) row) : ShowsIn t ks (failureClass t) row' := by
  obtain ⟨snapshot, s, hsnap, hshown, hk⟩ := h
  have hsnap₂ : nativeSnapshot row' = .obj snapshot := by
    rw [← hsnap, nativeSnapshot, nativeSnapshot, hsnap']
  have hclass : failureClass t (effectiveStatusValue row' t).1 :=
    effective_failure (by rw [hs']; decide) (by rw [hs']; decide)
  rw [shownOf, effective_open (by rw [hs]; decide)] at hshown
  cases hraw : row.rawStatus with
  | none =>
      rw [hraw] at hshown
      cases hshown
      exact absurd (.inr hk) hq
  | some n =>
      rw [hraw] at hshown
      by_cases hr : (effectiveStatusValue row' t).2 = true
      · exact ⟨snapshot, _, hsnap₂, by rw [shownOf, if_pos hr], hclass⟩
      · cases hv : extract (.obj snapshot) (ks.map .key) with
        | none => exact ⟨snapshot, _, hsnap₂, by rw [shownOf, if_neg hr, hv]; rfl, hclass⟩
        | some v =>
            rw [hv] at hshown
            have hv' : v = .str s := by simpa using hshown
            exact ⟨snapshot, s, hsnap₂, by rw [shownOf, if_neg hr, hv, hv']; rfl, hk⟩

/-- A failed task that shows a failure keeps showing one. -/
theorem ShowsIn.failed {row row' : AsyncTask} {op : DaoOp} {l : Local}
    (hap : StatusApart t ks) (hq : ¬ terminalValue t pendingPlaceholderStatus)
    (goes : ∀ t', GoesBy C t l t' → t' = t) (ha : AllowedWrite C t l op)
    (hchange : Change row row' op) (hs : row.status = TaskStatus.failed)
    (hrec : ∀ snapshot rawStatus nextPollAt expected,
      op ≠ .recordPollResult snapshot rawStatus nextPollAt expected)
    (h : ShowsIn t ks (failureClass t) row) :
    (row'.status = TaskStatus.failed ∨ row'.status ∈ businessTerminal) ∧
      ShowsIn t ks (failureClass t) row' := by
  have same : row'.status = row.status → row'.reported = row.reported →
      (row'.status = TaskStatus.failed ∨ row'.status ∈ businessTerminal) ∧
        ShowsIn t ks (failureClass t) row' :=
    fun he hr => ⟨.inl (he.trans hs), h.congr he hr⟩
  cases hchange with
  | claimed src unclaimed dst submission reported => cases hs.symm.trans src
  | submitted src held dst submission reported => cases hs.symm.trans src
  | reopened src dst submission reported => cases hs.symm.trans src
  | doubted src dst submission reported => cases hs.symm.trans src
  | relocated src given dst submission reported => cases hs.symm.trans src
  | released src dst submission reported => exact same dst reported
  | flagged src dst submission reported => exact same dst reported
  | recorded src dst submission reported => exact absurd rfl (hrec _ _ _ _)
  | kept still dst submission reported => exact same dst reported
  | @moved target expected values edge src dst closed submission reported =>
      -- a failed task may only be cancelled or declared dead
      have hobj : ∃ snapshot, nativeSnapshot row = .obj snapshot :=
        let ⟨snapshot, _, hsnap, _⟩ := h
        ⟨snapshot, hsnap⟩
      rw [hs] at edge
      cases target with
      | dead =>
          refine ⟨.inr (by rw [dst]; decide), shows_dead (.inr (.inr rfl)) (.inl dst) ?_⟩
          exact object_of_dead hap goes ha.2 reported hobj
      | deadAwaitingConfirm =>
          refine ⟨.inr (by rw [dst]; decide), shows_dead (.inr (.inr rfl)) (.inr dst) ?_⟩
          exact object_of_dead hap goes (.inl ha.2) reported hobj
      | cancelled =>
          obtain ⟨hsnap, -⟩ := Reported.mk.inj reported
          exact ⟨.inr (by rw [dst]; decide),
            h.cancelled hq hs dst (hsnap.trans (assign_snapshot ha.2))⟩
      | upstreamSubmitted => exact ha.elim
      | submitUnknown =>
          obtain ⟨⟨s, hm, rfl⟩, -, -⟩ := ha
          have he : TaskStatus.failed = s := hs.symm.trans (List.mem_singleton.mp (src _ rfl))
          rw [← he] at hm
          exact absurd hm (by decide)
      | _ => exact absurd edge (by decide)

/-- What an unfinished task shows is no terminal value, but for the failure of a failed one. -/
theorem terminalValue_of_open (hap : StatusApart t ks) {row : AsyncTask}
    (hq : ¬ terminalValue t pendingPlaceholderStatus) (hc : Consistent t row)
    (hs : row.status ∉ businessTerminal) {K : String → Prop} (hK : ∀ s, K s → terminalValue t s)
    (h : ShowsIn t ks K row) :
    row.status = TaskStatus.failed ∧ ∃ s, K s ∧ t.mapsStatus s = some TaskStatus.failed := by
  obtain ⟨snapshot, s, hsnap, hshown, hk⟩ := h
  rw [shownOf, effective_open hs] at hshown
  cases hraw : row.rawStatus with
  | none =>
      rw [hraw] at hshown
      cases hshown
      exact absurd (hK _ hk) hq
  | some n =>
      rw [hraw] at hshown
      -- a string that is shown is the raw status
      have shown_eq : Reads t row.statusSnapshot n → s = n := by
        intro hreads
        cases hv : extract (.obj snapshot) (ks.map .key) with
        | none =>
            rw [hv] at hshown
            cases hshown
            rfl
        | some v =>
            rw [hv] at hshown
            have hv' : v = .str s := by simpa using hshown
            obtain ⟨k, ks', rfl⟩ := List.exists_cons_of_ne_nil hap.ne_nil
            refine hreads k _ s hap.status ?_
            have hf := follow_of_extract hv
            rw [hv', ← hsnap] at hf
            exact hf
      by_cases hf : row.status = TaskStatus.failed
      · obtain ⟨hmaps, hreads⟩ := hc.failed hf n hraw
        exact ⟨hf, s, hk, shown_eq hreads ▸ hmaps⟩
      · obtain ⟨hn, hreads⟩ := hc.running hs hf n hraw
        exact absurd (hK _ hk) (shown_eq hreads ▸ hn)

/-- The row shows a value of the class for good. -/
def ShowsForGood (t : ResolvedTemplate) (ks : List String) (K : String → Prop) (row : AsyncTask) :
    Prop :=
  (row.status ∈ businessTerminal ∨ row.status = failed ∧ K = failureClass t) ∧ ShowsIn t ks K row

theorem ShowsForGood.act {w w' : World} {l : Log} {u : ℕ} {o : Op} {γ : Choice}
    {r : Except Exn o.Ans} {row : AsyncTask} {K : String → Prop} (hap : StatusApart t ks)
    (hq : ¬ terminalValue t pendingPlaceholderStatus)
    (href : Templated C t row.templateRef w l) (ht : templateOf C row = some t)
    (h : ShowsForGood t ks K w.row) (ha : Allowed C t (phase C t l u) o)
    (hw : respond w o γ = some (r, w')) (hg : recordsRunning C t w l u o r) :
    ShowsForGood t ks K w'.row := by
  obtain ⟨-, hrow⟩ | ⟨op, hh, hop, hchange, -⟩ := move_cases (u := u) ha hw
  · rw [hrow]
    exact h
  · have goes : ∀ t', GoesBy C t (phase C t l u) t' → t' = t := fun t' => goesBy_eq href ht
    obtain ⟨hs | ⟨hs, rfl⟩, hshown⟩ := h
    · obtain ⟨hs', hshown'⟩ := hshown.terminal hap goes hop hchange hs
      exact ⟨.inl hs', hshown'⟩
    · obtain ⟨hs', hshown'⟩ := hshown.failed hap hq goes hop hchange hs
        fun snapshot rawStatus nextPollAt expected he =>
          (hg op hh).2 snapshot rawStatus nextPollAt expected he hs
      exact ⟨hs'.symm.imp id fun h => ⟨h, rfl⟩, hshown'⟩

/-- What shows a terminal value shows it for good. -/
theorem showsForGood_of_shows (hap : StatusApart t ks)
    (hq : ¬ terminalValue t pendingPlaceholderStatus) {row : AsyncTask} (hc : Consistent t row)
    {K : String → Prop} (hK : K = (· ∈ t.terminal.success) ∨ K = failureClass t)
    (h : ShowsIn t ks K row) : ShowsForGood t ks K row := by
  refine ⟨?_, h⟩
  by_cases hs : row.status ∈ businessTerminal
  · exact .inl hs
  · obtain rfl | rfl := hK
    · obtain ⟨-, s, hsucc, hmaps⟩ := terminalValue_of_open hap hq hc hs (fun s => .inl) h
      simp [ResolvedTemplate.mapsStatus, hsucc] at hmaps
    · exact .inr ⟨(terminalValue_of_open hap hq hc hs (fun s => .inr) h).1, rfl⟩

/-- **What a query shows of the end of a task is never taken back.**  For a status field of keys
apart from the other rewritten fields, a template without the placeholder among its terminal values,
and a run that records no terminal value while the task goes on and nothing of a failed task: once a
success was shown a success is shown, and once a failure was shown a failure is shown. -/
theorem shown_monotone {w : World} {c₁ c₂ : Config (gateway C t)} (hw : Inserted w.row)
    (ht : templateOf C w.row = some t) (hap : StatusApart t ks)
    (hq : ¬ terminalValue t pendingPlaceholderStatus)
    (h₁ : Run (recordsRunning C t) ((gateway C t).initial w) c₁)
    (h₂ : Run (recordsRunning C t) c₁ c₂) (url₁ url₂ : Option String) :
    ((∃ s, shownStatus C c₁.world.row t url₁ = some (.str s) ∧ s ∈ t.terminal.success) →
      ∃ s, shownStatus C c₂.world.row t url₂ = some (.str s) ∧ s ∈ t.terminal.success) ∧
    ((∃ s, shownStatus C c₁.world.row t url₁ = some (.str s) ∧ failureClass t s) →
      ∃ s, shownStatus C c₂.world.row t url₂ = some (.str s) ∧ failureClass t s) := by
  have hc₁ : Consistent t c₁.world.row := by
    refine (gateway_invariant
      (fun w' l => Templated C t w.row.templateRef w' l ∧ Consistent t w'.row)
      ⟨templated_start, ?_⟩ ?_ ?_ ?_ h₁).2
    · refine ⟨fun _ _ n hn => ?_, fun hs => ?_⟩
      · rw [hw.rawStatus] at hn
        cases hn
      · rw [hw.status] at hs
        cases hs
    · exact fun w' l u κ _ _ h => ⟨h.1.spawn u κ, h.2⟩
    · exact fun w₁ l u o γ r w₂ _ h ha hw' hg =>
        ⟨h.1.act ha hw', h.2.act h.1 ht ha hw' hg⟩
    · exact fun w' l u _ h => ⟨h.1.halt u, h.2⟩
  have keeps : ∀ {K : String → Prop}, (K = (· ∈ t.terminal.success) ∨ K = failureClass t) →
      (∃ s, shownStatus C c₁.world.row t url₁ = some (.str s) ∧ K s) →
        ∃ s, shownStatus C c₂.world.row t url₂ = some (.str s) ∧ K s := by
    intro K hK h
    have hgood := showsForGood_of_shows hap hq hc₁ hK ((shows_iff hap).mp h)
    refine (shows_iff hap).mpr (gateway_invariant_from
      (fun w' l => Templated C t w.row.templateRef w' l ∧ ShowsForGood t ks K w'.row) h₁
      ⟨templated_run h₁, hgood⟩ ?_ ?_ ?_ h₂).2.2
    · exact fun w' l u κ _ _ h => ⟨h.1.spawn u κ, h.2⟩
    · exact fun w₁ l u o γ r w₂ _ h ha hw' hg =>
        ⟨h.1.act ha hw', h.2.act hap hq h.1 ht ha hw' hg⟩
    · exact fun w' l u _ h => ⟨h.1.halt u, h.2⟩
  exact ⟨keeps (.inl rfl), keeps (.inr rfl)⟩

instance (t : ResolvedTemplate) (s : String) : Decidable (failureClass t s) :=
  inferInstanceAs (Decidable (_ ∨ _ ∨ _))

instance (t : ResolvedTemplate) (s : String) : Decidable (terminalValue t s) :=
  inferInstanceAs (Decidable (_ ∨ _))

/-- The upstream reports a failure, and the task has attempts left. -/
def shownFailed {t : ResolvedTemplate} : Script t :=
  created [] ++ polled 1 (.obj [("status", .str "failed")]) ++
    goesOn 1 0 [.done, .rat 0, .done, .done]

/-- A query refreshes the task, and the upstream reports that it is at work. -/
def refreshedRunning {t : ResolvedTemplate} : Script t :=
  .spawn (.query { channel := "channel", tenant := "tenant", bearer := some "key" } "upstream") ::
    goesOn 2 10 [.done, .done, .text none, .done, answers (.obj [("status", .str "running")]), .done,
      .done, .done, .rat 5, .done, .done]

/-- Whether the row shows the value at the status field. -/
def showsValue (t : ResolvedTemplate) (row : AsyncTask) (s : String) : Bool :=
  match shownStatus (sampleContainer t) row t none with
  | some (.str s') => decide (s' = s)
  | _ => false

theorem shownStatus_of_value {row : AsyncTask} {s : String} (h : showsValue t row s = true) :
    shownStatus (sampleContainer t) row t none = some (.str s) := by
  unfold showsValue at h
  split at h
  · rw [← of_decide_eq_true h]
    assumption
  · cases h

theorem shown_taken_back :
    ∃ c₁ c₂, Run (gateway (sampleContainer twoAttempts) twoAttempts).anything
        (sampleStart twoAttempts sampleRow) c₁ ∧
      Run (gateway (sampleContainer twoAttempts) twoAttempts).anything c₁ c₂ ∧
      twoAttempts.issues = [] ∧
      shownStatus (sampleContainer twoAttempts) c₁.world.row twoAttempts none =
        some (.str "failed") ∧ failureClass twoAttempts "failed" ∧
      shownStatus (sampleContainer twoAttempts) c₂.world.row twoAttempts none =
        some (.str "running") ∧ ¬ terminalValue twoAttempts "running" := by
  obtain ⟨c₁, h₁, hp⟩ := reached (t := twoAttempts) sampleRow shownFailed (fun _ _ _ _ _ => true)
    (fun c₁ => showsValue twoAttempts c₁.world.row "failed" &&
      (c₁.exec (fun _ _ _ _ _ => true) refreshedRunning).any fun c₂ =>
        showsValue twoAttempts c₂.world.row "running")
    (fun _ _ _ _ _ _ => trivial) (by decide +kernel)
  obtain ⟨hp₁, hp₂⟩ := Bool.and_eq_true_iff.mp hp
  obtain ⟨c₂, h₂, hp₂⟩ := Run.of_any_exec (fun _ _ _ _ _ _ => trivial) hp₂
  exact ⟨c₁, c₂, h₁, h₂, by decide +kernel, shownStatus_of_value hp₁, by decide,
    shownStatus_of_value hp₂, by decide⟩

/-- The failed task is cancelled upstream. -/
def cancelledFailed {t : ResolvedTemplate} : Script t :=
  .spawn .cancelUpstream :: goesOn 2 0 [.done, .text (some "key"), .text none, .done,
    .upstream (.ok { statusCode := 200 }), .done, .done, .done]

/-- Whether a run records running values only, and nothing of a failed task. -/
def recordsPlainly (C : Container) (t : ResolvedTemplate) : (gateway C t).Check :=
  fun w _ u o r => match hit (.act u o r) with
    | some op => op.running.all (fun n => decide (¬ terminalValue t n)) &&
        match op with
        | .recordPollResult _ _ _ _ => decide (w.row.status ≠ failed)
        | _ => true
    | none => true

theorem recordsRunning_of_plainly {w : World} {l : Log} {u : ℕ} {o : Op} {r : Except Exn o.Ans}
    (h : recordsPlainly C t w l u o r = true) : recordsRunning C t w l u o r := by
  intro op hh
  simp only [recordsPlainly, hh, Bool.and_eq_true] at h
  refine ⟨fun n hn => ?_, ?_⟩
  · exact of_decide_eq_true ((Option.all_eq_true _ _).mp h.1 n hn)
  · rintro snapshot rawStatus nextPollAt expected rfl
    exact of_decide_eq_true h.2

theorem shown_monotone_cancelled :
    ∃ c₁ c₂, Run (recordsRunning (sampleContainer twoAttempts) twoAttempts)
        (sampleStart twoAttempts sampleRow) c₁ ∧
      Run (recordsRunning (sampleContainer twoAttempts) twoAttempts) c₁ c₂ ∧
      c₁.world.row.status = failed ∧ c₂.world.row.status = cancelled ∧
      ∃ s, shownStatus (sampleContainer twoAttempts) c₂.world.row twoAttempts none =
        some (.str s) ∧ failureClass twoAttempts s := by
  obtain ⟨c₁, h₁, hp⟩ := reached (t := twoAttempts) sampleRow shownFailed (recordsPlainly _ _)
    (fun c₁ => decide (c₁.world.row.status = failed) &&
      showsValue twoAttempts c₁.world.row "failed" &&
      (c₁.exec (recordsPlainly _ _) cancelledFailed).any fun c₂ =>
        decide (c₂.world.row.status = cancelled))
    (fun _ _ _ _ _ => recordsRunning_of_plainly) (by decide +kernel)
  obtain ⟨hp₁, hp₂⟩ := Bool.and_eq_true_iff.mp hp
  obtain ⟨hs, hp₁⟩ := Bool.and_eq_true_iff.mp hp₁
  obtain ⟨c₂, hrun, hp₂⟩ := Run.of_any_exec (fun _ _ _ _ _ => recordsRunning_of_plainly) hp₂
  exact ⟨c₁, c₂, h₁, hrun, of_decide_eq_true hs, of_decide_eq_true hp₂,
    (shown_monotone inserted_sampleRow rfl (statusApart_sample rfl rfl rfl) (by decide) h₁
      hrun none none).2
      ⟨_, shownStatus_of_value hp₁, by decide⟩⟩

end AsyncGateway
