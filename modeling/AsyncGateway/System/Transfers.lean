import AsyncGateway.System.Ledger
import AsyncGateway.System.Pacing
import AsyncGateway.System.Rows

/-!
# System — how often a result is fetched

A task that succeeded has its result fetched by `store_result`, whose message names the attempt.  A
fetch that fails is made again by the inspector, with the attempt the row records, until the attempt
is `MAX_TRANSFER_ATTEMPTS`; then the result is given up.  The row records the attempt that failed,
not the next one, so every message names the first attempt and no fetch is the last
(`fetched_forever`).

Whether `store_result` requests the result at all is read off the row (`requestedUrl`), and of a
task that succeeded only its transfer writes the row.  So where the result is not requested it never
is, and where it is, every delivery of a message requests it once more: the fetches are bounded just
where there are none (`transfers_bounded_iff`).
-/

namespace AsyncGateway

open TaskStatus TaskRuntime
open Interleave

/-! ### A run of `store_result` -/

/-- The URL `store_result` requests for the row, where its guards let it. -/
def requestedUrl (C : Container) (row : AsyncTask) : Option String :=
  if row.status = succeeded ∧ row.resultRef = none ∧ C.hasResultStore then
    (templateOf C row).bind fun t =>
      if t.resultPolicy.mode = .store then
        match tryExtract (payloadOr row.statusSnapshot) t.resultLocation with
        | .ok (some (.str url)) => some url
        | _ => none
      else none
  else none

/-- The guards, one by one. -/
structure Requests (C : Container) (row : AsyncTask) (t : ResolvedTemplate) (url : String) :
    Prop where
  status : row.status = succeeded
  unstored : row.resultRef = none
  store : C.hasResultStore = true
  template : templateOf C row = some t
  mode : t.resultPolicy.mode = .store
  found : tryExtract (payloadOr row.statusSnapshot) t.resultLocation = .ok (some (.str url))

theorem requestedUrl_eq_some {C : Container} {row : AsyncTask} {url : String} :
    requestedUrl C row = some url ↔ ∃ t, Requests C row t url := by
  constructor
  · intro h
    unfold requestedUrl at h
    split at h
    · next hrow =>
        obtain ⟨t, ht, h⟩ := Option.bind_eq_some_iff.mp h
        split at h
        · next hmode =>
            split at h
            · next hfound =>
                cases h
                exact ⟨t, hrow.1, hrow.2.1, hrow.2.2, ht, hmode, hfound⟩
            · cases h
        · cases h
    · cases h
  · rintro ⟨t, h⟩
    rw [requestedUrl, if_pos ⟨h.status, h.unstored, h.store⟩, h.template, Option.bind_some,
      if_pos h.mode, h.found]

/-- What is known of a handler: the attempt its message names, whether it is to request the result
of the row it loaded last, and whether it brought it. -/
structure Transfer where
  attempt : Option ℤ := none
  ready : Bool := false
  fetched : Bool := false

/-- The answer brings the result. -/
def bringsResult (C : Container) : (o : Op) → Except Exn o.Ans → Bool
  | .recv .result, .ok (.ok response) =>
      decide (200 ≤ response.statusCode ∧ response.statusCode < 300) &&
        decide (response.content.length ≤ C.resultMaxBytes)
  | _, _ => false

namespace Transfer

variable (C : Container) (m : Transfer)

/-- The operations a handler may ask for. -/
def Allows : Op → Prop
  | .send .result _ => m.attempt.isSome = true ∧ m.ready = true
  | .apply (.setResultRef _ _ _) _ => m.fetched = true
  | _ => True

/-- After an operation was answered. -/
def next (o : Op) (r : Except Exn o.Ans) : Transfer :=
  match o, r with
  | .load, .ok row => { m with ready := row.any fun row => (requestedUrl C row).isSome }
  | .recv .result, .ok answer => { m with fetched := bringsResult C (.recv .result) (.ok answer) }
  | _, _ => m

end Transfer

def Work.attempt : Work → Option ℤ
  | .storeResult attempt => some attempt
  | _ => none

/-- **The transfer of a result.** -/
def transferring (C : Container) : Protocol effects Exn Work where
  State := Transfer
  start κ := { attempt := κ.attempt }
  idle := {}
  gone m := m
  allows := Transfer.Allows
  next := Transfer.next C
  done _ := True
  done_idle := trivial
  done_gone _ := trivial

section Follows

variable {C : Container} {t : ResolvedTemplate} {m : Transfer} {α : Type}

theorem allows_of_apart {o : Op} (h : ¬ o.ofTransfer = true) : m.Allows o := by
  cases o with
  | apply op also => cases op <;> trivial
  | send purpose request => cases purpose <;> trivial
  | _ => trivial

theorem follows_of_apart {p : Handler α} (h : Apart p) : Follows (transferring C) p m := by
  induction p generalizing m with
  | pure a => trivial
  | raise x => trivial
  | op o k ih =>
      exact ⟨allows_of_apart (h o (.inl rfl)),
        fun r => ih r fun o' ho' => h o' (.inr ⟨r, ho'⟩)⟩

variable {task : AsyncTask} {attempt : ℤ}

theorem leads_fetchResult {url : String} (ha : m.attempt = some attempt) (hm : m.ready = true) :
    Leads (transferring C) (fetchResult C url) m fun fetched m' =>
      ∀ bytes, fetched = .body bytes → m'.fetched = true := by
  refine .bind (.perform trivial fun violation => ?_)
  cases violation with
  | some violation => exact fun bytes h => nomatch h
  | none =>
      refine .bind (.perform ⟨Option.isSome_iff_exists.mpr ⟨_, ha⟩, hm⟩ fun _ =>
        .bind (.perform trivial fun answer => ?_))
      cases answer with
      | error exc => exact fun bytes h => nomatch h
      | ok response =>
          refine .ite (fun _ => fun bytes h => nomatch h) fun hgood => .ite
            (fun _ => fun bytes h => nomatch h) fun hsmall => fun bytes _ => ?_
          change (decide _ && decide _) = true
          exact Bool.and_eq_true_iff.mpr
            ⟨decide_eq_true (not_not.mp hgood), decide_eq_true (not_lt.mp hsmall)⟩

theorem follows_transferFailed {detail : String} {refs : Json.Fields} {note : String} :
    Follows (transferring C) (transferFailed task detail refs note) m :=
  .bind (.perform trivial fun _ => .perform trivial fun _ => trivial)

theorem follows_transfer {url : String} (ha : m.attempt = some attempt) (hm : m.ready = true) :
    Follows (transferring C) (transfer C task attempt url) m := by
  refine .bind (.perform trivial fun _ => .bind ((leads_fetchResult ha hm).mono
    fun fetched m' hf => ?_))
  cases fetched with
  | body bytes =>
      exact .bind (.perform trivial fun _ => .bind (.perform (hf bytes rfl) fun (hit : Bool) =>
        .ite (fun _ => .perform trivial fun _ => trivial) fun _ => trivial))
  | _ =>
      refine .ite (fun _ => ?_) fun _ => follows_transferFailed
      refine .bind (.bind (.perform trivial fun _ => .ofExcept fun delay _ => ?_))
      refine .bind (.bind (.perform trivial fun _ => .ofExcept fun next _ => ?_))
      exact .bind (.perform trivial fun _ => trivial)

theorem templateOf_of_require
    {t : ResolvedTemplate} (h : C.require task.templateAlias task.templateVersion = .ok t) :
    templateOf C task = some t := by
  unfold Container.require at h
  unfold templateOf
  split at h
  · next hreg => rw [hreg, Except.ok.inj h]
  · cases h

theorem follows_storeResult (ha : m.attempt = some attempt) :
    Follows (transferring C) (storeResult C attempt) m := by
  refine .bind (.perform trivial fun row => ?_)
  cases row with
  | none => trivial
  | some task =>
      refine .ite (fun hrow => ?_) fun _ => trivial
      refine .bind (.bind (.ofExcept fun t' ht => .ite (fun _ => trivial) fun hmode =>
        .bind (.ofExcept fun found hfound => ?_)))
      split
      · next url =>
          have hurl : requestedUrl C task = some url := requestedUrl_eq_some.mpr
            ⟨t', hrow.1, hrow.2.1, hrow.2.2, templateOf_of_require ht, not_not.mp hmode,
              lift_eq_ok hfound⟩
          exact follows_transfer ha (congrArg Option.isSome hurl)
      · exact follows_transferFailed

/-- **Every handler keeps to the protocol.** -/
theorem keeps_transferring (κ : Work) :
    Follows (transferring C) (κ.body C t) ((transferring C).start κ) := by
  cases κ with
  | storeResult attempt => exact follows_storeResult rfl
  | _ => exact follows_of_apart (apart_body fun _ he => by cases he)

end Follows

/-! ### The row of a task that succeeded -/

section Row

variable {now : Time} {row row' : AsyncTask} {op : DaoOp}

/-- Only `set_result_ref` sets the reference. -/
theorem resultRef_kept (h : op.run now row = .ok (some row'))
    (ho : ∀ ref summary degraded, op ≠ .setResultRef ref summary degraded) :
    row'.resultRef = row.resultRef := by
  cases op with
  | setResultRef ref summary degraded => exact absurd rfl (ho _ _ _)
  | advance dst expected values =>
      obtain ⟨-, -, rfl⟩ := advance_eq_some h
      simp
  | enterUnknown code message expected =>
      rw [DaoOp.run] at h
      obtain ⟨-, -, rfl⟩ := advance_eq_some h
      simp
  | relocateCompensate id target raw snapshot next note =>
      rw [DaoOp.run] at h
      obtain ⟨-, -, rfl⟩ := advance_eq_some h
      simp
  | _ =>
      obtain ⟨-, -, rfl⟩ := cas_eq_some.mp (Except.ok.inj h)
      simp [Write.apply]

/-- The writes that are of the transfer. -/
def DaoOp.ofTransfer : DaoOp → Bool
  | .setResultRef _ _ _ => true
  | .scheduleTransferRetry _ _ => true
  | .markResultUnavailable _ => true
  | _ => false

/-- A task that succeeded is written by its transfer only. -/
theorem ofTransfer_of_succeeded {b : Book} (hc : Careful b op) (hs : row.status = succeeded)
    (h : op.run now row = .ok (some row')) : op.ofTransfer = true := by
  have active : ∀ {expected : List TaskStatus} {values : List Write} {extraWhere : Bool},
      cas now row expected values extraWhere = some row' → succeeded ∈ expected := by
    intro expected values extraWhere hcas
    exact hs ▸ (cas_eq_some.mp hcas).1
  have stuck : ∀ {dst : TaskStatus} {expected values},
      advance now row dst expected values = .ok (some row') → False := by
    intro dst expected values hadv
    have edge := (advance_eq_some hadv).1
    rw [hs] at edge
    cases edge
  cases op with
  | advance dst expected values => exact (stuck h).elim
  | enterUnknown code message expected =>
      rw [DaoOp.run] at h
      exact (stuck h).elim
  | relocateCompensate id target raw snapshot next note =>
      rw [DaoOp.run] at h
      exact (stuck h).elim
  | recordPollResult snapshot rawStatus next expected =>
      exact absurd (hc _ (active (Except.ok.inj h))) (by decide)
  | markFailure expected code message retryable next snapshot =>
      exact absurd (hc _ (active (Except.ok.inj h))) (by decide)
  | leaseDispatch leaseSeconds expected =>
      exact absurd (hc _ (active (Except.ok.inj h))) (by decide)
  | releaseSubmitIntent expected next decrement code message retryable attributes deadline =>
      exact absurd (hc _ (active (Except.ok.inj h))) (by decide)
  | setResultRef ref summary degraded => rfl
  | scheduleTransferRetry next n => rfl
  | markResultUnavailable detail => rfl
  | _ => exact absurd (active (Except.ok.inj h)) (by decide)

/-- The request is read off four columns of the row. -/
theorem requestedUrl_congr {C : Container} (hs : row'.status = row.status)
    (hr : row'.resultRef = row.resultRef) (hsnap : row'.statusSnapshot = row.statusSnapshot)
    (ht : row'.templateRef = row.templateRef) : requestedUrl C row' = requestedUrl C row := by
  rw [requestedUrl, requestedUrl, hs, hr, hsnap, templateOf_congr ht]

/-- A write to a task that succeeded leaves the request as it is, unless it sets the reference. -/
theorem requestedUrl_kept {C : Container} {b : Book} (hc : Careful b op)
    (hs : row.status = succeeded)
    (ho : ∀ ref summary degraded, op ≠ .setResultRef ref summary degraded)
    (h : op.run now row = .ok (some row')) :
    row'.status = succeeded ∧ requestedUrl C row' = requestedUrl C row := by
  have hop := ofTransfer_of_succeeded hc hs h
  cases op with
  | setResultRef ref summary degraded => exact absurd rfl (ho ref summary degraded)
  | scheduleTransferRetry next n =>
      obtain ⟨-, -, rfl⟩ := cas_eq_some.mp (Except.ok.inj h)
      exact ⟨hs, requestedUrl_congr rfl rfl rfl rfl⟩
  | markResultUnavailable detail =>
      obtain ⟨-, -, rfl⟩ := cas_eq_some.mp (Except.ok.inj h)
      rw [foldl_cols]
      refine ⟨by simpa using hs, requestedUrl_congr (by simp) (by simp) ?_ ?_⟩ <;>
        simp [AsyncTask.templateRef, Assign.apply, AsyncTask.touch]
  | _ => cases hop

end Row

/-! ### In every run -/

section Runs

variable {C : Container} {t : ResolvedTemplate}

/-- The request of a fetch goes out. -/
def isFetch : Happening → Bool
  | .act _ (.send .result _) _ => true
  | _ => false

/-- How often the result was fetched. -/
def fetches (log : Log) : ℕ := log.countP isFetch

/-- Where the protocol has handler `u` after the log. -/
abbrev transferOf (C : Container) (t : ResolvedTemplate) (log : Log) (u : ℕ) : Transfer :=
  (transferring C).after (M := gateway C t) log u

/-- **The fetches are bounded**: there are at most `MAX_TRANSFER_ATTEMPTS`, and once the handler
that made the last of them returned, the task is degraded and no more listed. -/
structure TransferBounded (c : Config (gateway C t)) : Prop where
  atMost : (fetches c.log : ℤ) ≤ maxTransferAttempts
  after : ∀ e, c.log.find? isFetch = some e → (fetches c.log : ℤ) = maxTransferAttempts →
    returned c e.thread = true → .halt e.thread ∉ c.log →
      c.world.row.resultDegraded = some ["transfer_failed"] ∧
        ∀ now, pendingTransfer now c.world.row = false

/-- A message for the attempt is put on the bus. -/
def sendsAttempt (attempt : ℤ) : Happening → Bool
  | .act _ (.enqueue message) (.ok _) =>
      decide (message.name = "store_result" ∧ message.attempt.getD 1 = attempt)
  | _ => false

/-- A message for the attempt is put on the bus, or may be there for all that an exception says. -/
def asksForAttempt (attempt : ℤ) : Happening → Bool
  | .act _ (.enqueue message) _ =>
      decide (message.name = "store_result" ∧ message.attempt.getD 1 = attempt)
  | _ => false

theorem asks_of_sends {attempt : ℤ} {e : Happening} (h : sendsAttempt attempt e = true) :
    asksForAttempt attempt e = true := by
  unfold sendsAttempt at h
  split at h
  · exact h
  · cases h

/-- **Every `store_result` runs on a message that a handler or the inspector sent**; one message may
be delivered any number of times. -/
def Delivered : Log → Prop
  | [] => True
  | .spawn _ (.storeResult attempt) :: l =>
      (∃ e ∈ l, asksForAttempt attempt e = true) ∧ Delivered l
  | _ :: l => Delivered l

/-- **Every fetch fails with an error that may pass**: no URL is refused, and every answer is an
exception of the transport or of a status that is no success. -/
def failsRetryably (C : Container) (t : ResolvedTemplate) : (gateway C t).Condition :=
  fun _ l u o r => match o, r with
    | .validateTarget _, .ok violation =>
        (transferOf C t l u).attempt.isSome = true → violation = none
    | .recv .result, .ok (.ok response) =>
        ¬ (200 ≤ response.statusCode ∧ response.statusCode < 300)
    | _, _ => True

theorem bringsResult_of_failsRetryably {w : World} {l : Log} {u : ℕ} {o : Op} {r : Except Exn o.Ans}
    (h : failsRetryably C t w l u o r) : bringsResult C o r = false := by
  unfold bringsResult
  split
  · rw [decide_eq_false h, Bool.false_and]
  · rfl

/-! #### What an answer does to the row -/

section Answer

variable {w w' : World} {u : ℕ} {o : Op} {γ : Choice} {r : Except Exn o.Ans}

/-- Only a write that hits changes the row. -/
theorem row_of_unhit (h : respond w o γ = some (r, w')) (hn : hit (.act u o r) = none) :
    w'.row = w.row := by
  have hr := respond_eq_some h
  by_cases ha : ∃ op also, o = .apply op also
  · obtain ⟨op, also, rfl⟩ := ha
    obtain ⟨x, -, hrow⟩ | ⟨-, hrow⟩ | ⟨now, rfl, -⟩ := reply_apply hr
    · exact hrow
    · exact hrow
    · cases hn
  · exact reply_row hr fun op also he => ha ⟨op, also, he⟩

/-- An answer that comes at once. -/
theorem respond_at_once {a : Reply} (h : reply w.row o ⟨w.clock, a⟩ = some (r, w.row)) :
    respond w o ⟨w.clock, a⟩ = some (r, w) := by
  rw [respond, if_pos (le_refl w.clock), h]
  rfl

end Answer

/-! #### The invariant -/

/-- What holds of every handler after an event. -/
theorem forall_transfer {Q : ℕ → Transfer → Prop} {l : Log} {e : Happening}
    (own : Q e.thread ((transferring C).turn (M := gateway C t) e (transferOf C t l e.thread)))
    (others : ∀ v, v ≠ e.thread → Q v (transferOf C t l v)) :
    ∀ v, Q v (transferOf C t (e :: l) v) :=
  Protocol.forall_after (P := transferring C) (M := gateway C t) own others

/-- What holds of the row and the log of a run whose fetches fail: nothing is stored, and the row is
one that is requested where a request went out, or is about to. -/
structure Requested (C : Container) (t : ResolvedTemplate) (w : World) (l : Log) : Prop where
  unstored : w.row.resultRef = none
  unfetched : ∀ u, (transferOf C t l u).fetched = false
  ready : ∀ u, (transferOf C t l u).ready = true → (requestedUrl C w.row).isSome = true
  asked : 0 < fetches l → (requestedUrl C w.row).isSome = true

namespace Requested

variable {w w' : World} {l : Log} {u : ℕ}

theorem start (hw : Inserted w.row) : Requested C t w [] where
  unstored := hw.resultRef
  unfetched _ := rfl
  ready _ h := by cases h
  asked h := absurd h (Nat.lt_irrefl 0)

theorem spawn (h : Requested C t w l) (u : ℕ) (κ : Work) :
    Requested C t w (.spawn u κ :: l) where
  unstored := h.unstored
  unfetched := forall_transfer (Q := fun _ m => m.fetched = false) rfl fun v _ => h.unfetched v
  ready := forall_transfer (Q := fun _ m => m.ready = true → _) (fun hr => by cases hr)
    fun v _ => h.ready v
  asked := h.asked

theorem halt (h : Requested C t w l) (u : ℕ) : Requested C t w (.halt u :: l) where
  unstored := h.unstored
  unfetched := forall_transfer (Q := fun _ m => m.fetched = false) (h.unfetched u)
    fun v _ => h.unfetched v
  ready := forall_transfer (Q := fun _ m => m.ready = true → _) (h.ready u) fun v _ => h.ready v
  asked := h.asked

variable {o : Op} {γ : Choice} {r : Except Exn o.Ans}

/-- What an answer leaves of the row: nothing is stored, and a task that succeeded is requested as
before. -/
theorem row (h : Requested C t w l) {b : Book} (hb : b.Allows o)
    (ha : (transferOf C t l u).Allows o) (hw : respond w o γ = some (r, w')) :
    w'.row.resultRef = none ∧ (w.row.status = succeeded →
      w'.row.status = succeeded ∧ requestedUrl C w'.row = requestedUrl C w.row) := by
  cases hh : hit (.act u o r) with
  | none =>
      rw [row_of_unhit hw hh]
      exact ⟨h.unstored, fun hs => ⟨hs, rfl⟩⟩
  | some op =>
      have hrun := respond_hit hw hh
      obtain ⟨also, he⟩ := hit_eq_some hh
      cases he
      have unset : ∀ ref summary degraded, op ≠ .setResultRef ref summary degraded := by
        rintro ref summary degraded rfl
        exact absurd ((h.unfetched u).symm.trans ha) Bool.false_ne_true
      exact ⟨(resultRef_kept hrun unset).trans h.unstored,
        fun hs => requestedUrl_kept hb hs unset hrun⟩

/-- A row that is requested stays one. -/
theorem kept (h : Requested C t w l) {b : Book} (hb : b.Allows o)
    (ha : (transferOf C t l u).Allows o) (hw : respond w o γ = some (r, w'))
    (hurl : (requestedUrl C w.row).isSome = true) : (requestedUrl C w'.row).isSome = true := by
  obtain ⟨url, he⟩ := Option.isSome_iff_exists.mp hurl
  obtain ⟨t', ht'⟩ := requestedUrl_eq_some.mp he
  rw [((h.row hb ha hw).2 ht'.status).2]
  exact hurl

theorem act (h : Requested C t w l) {b : Book} (hb : b.Allows o)
    (ha : (transferOf C t l u).Allows o) (hw : respond w o γ = some (r, w'))
    (hf : failsRetryably C t w l u o r) : Requested C t w' (.act u o r :: l) where
  unstored := (h.row hb ha hw).1
  unfetched := by
    refine forall_transfer (Q := fun _ m => m.fetched = false) ?_ fun v _ => h.unfetched v
    change ((transferOf C t l u).next C o r).fetched = false
    unfold Transfer.next
    split
    · exact h.unfetched u
    · exact bringsResult_of_failsRetryably hf
    · exact h.unfetched u
  ready := by
    refine forall_transfer (Q := fun _ m => m.ready = true → _) ?_
      fun v _ hr => h.kept hb ha hw (h.ready v hr)
    change ((transferOf C t l u).next C o r).ready = true → _
    unfold Transfer.next
    split
    · -- the row it loads is the row
      rename_i row
      intro hr
      rcases reply_load (respond_eq_some hw) with ⟨x, hx⟩ | hrow
      · cases hx
      · cases hrow
        exact h.kept hb ha hw hr
    · exact fun hr => h.kept hb ha hw (h.ready u hr)
    · exact fun hr => h.kept hb ha hw (h.ready u hr)
  asked hpos := by
    cases he : isFetch (.act u o r) with
    | false =>
        rw [fetches, List.countP_cons_of_neg (by simp [he])] at hpos
        exact h.kept hb ha hw (h.asked hpos)
    | true =>
        obtain ⟨request, rfl⟩ : ∃ request, o = .send .result request := by
          unfold isFetch at he
          split at he
          · next heq =>
              cases heq
              exact ⟨_, rfl⟩
          · cases he
        exact h.kept hb ha hw (h.ready u ha.2)

end Requested

theorem follows_transfers (κ : Work) :
    Follows ((bookkeeping C).both (transferring C)) (κ.body C t)
      (((bookkeeping C).both (transferring C)).start κ) :=
  (settles_books κ).follows.both (keeps_transferring κ)

theorem requested_run {c : Config (gateway C t)} (h : Reachable C t (failsRetryably C t) c) :
    Requested C t c.world c.log := by
  obtain ⟨w, hw, run⟩ := h
  refine Run.invariant (M := gateway C t) (P := (bookkeeping C).both (transferring C))
    (fun w l => Requested C t w l) follows_transfers (Keeps.initial w) (by exact Requested.start hw)
    (fun _ _ u κ _ hi => hi.spawn u κ) ?_ (fun _ _ u hi => hi.halt u) run
  intro w l u o γ r w' hi ha hw hg
  have ha : ((bookkeeping C).both (transferring C)).allows
      ((bookkeeping C).after l u, (transferring C).after l u) o := by
    rwa [Protocol.after_both] at ha
  exact hi.act ha.1 ha.2 hw hg

/-- **From when a task succeeded on, its result is requested or it is not.** -/
theorem requestedUrl_run {c c' : Config (gateway C t)} (h : Reachable C t (failsRetryably C t) c)
    (run : Run (failsRetryably C t) c c') (hs : c.world.row.status = succeeded) :
    requestedUrl C c'.world.row = requestedUrl C c.world.row := by
  have keeps : Keeps ((bookkeeping C).both (transferring C)) c := by
    obtain ⟨w, -, run₀⟩ := h
    exact Keeps.run follows_transfers (Keeps.initial w) run₀
  have hinv : Requested C t c'.world c'.log ∧ c'.world.row.status = succeeded ∧
      requestedUrl C c'.world.row = requestedUrl C c.world.row := by
    refine Run.invariant (M := gateway C t) (P := (bookkeeping C).both (transferring C))
      (fun w l => Requested C t w l ∧ w.row.status = succeeded ∧ requestedUrl C w.row = _)
      follows_transfers keeps ⟨requested_run h, hs, rfl⟩
      (fun _ _ u κ _ hi => ⟨hi.1.spawn u κ, hi.2⟩) ?_ (fun _ _ u hi => ⟨hi.1.halt u, hi.2⟩) run
    rintro w l u o γ r w' ⟨hi, hstatus, hurl⟩ ha hw hg
    have ha : ((bookkeeping C).both (transferring C)).allows
        ((bookkeeping C).after l u, (transferring C).after l u) o := by
      rwa [Protocol.after_both] at ha
    obtain ⟨hstatus', hurl'⟩ := (hi.row ha.1 ha.2 hw).2 hstatus
    exact ⟨hi.act ha.1 ha.2 hw hg, hstatus', hurl'.trans hurl⟩
  exact hinv.2.2

/-! #### One delivery more -/

/-- What a pool does when one of its handlers is answered. -/
theorem run_answered {c : Config (gateway C t)} {G : (gateway C t).Condition} {u : ℕ} {o : Op}
    {k : Except Exn o.Ans → Handler Unit} {a : Reply} {r : Except Exn o.Ans}
    (hp : c.prog u = .op o k) (ha : reply c.world.row o ⟨c.world.clock, a⟩ = some (r, c.world.row))
    (hg : G c.world c.log u o r) :
    ∃ c', Run G c c' ∧ c'.world = c.world ∧ c'.prog u = k r ∧ c'.log = .act u o r :: c.log :=
  ⟨_, Run.refl.more (.act hp (respond_at_once ha) hg), rfl, Function.update_self _ _ _, rfl⟩

/-- What a transfer asks for, as far as the request. -/
theorem transfer_requests (row : AsyncTask) (attempt : ℤ) (url : String) :
    ∃ (k : Except Exn (Op.Ans .getCredential) → Handler Unit)
      (k' : Except Exn (Op.Ans (.validateTarget url)) → Handler Unit) (request : RenderedRequest)
      (k'' : Except Exn (Op.Ans (.send .result request)) → Handler Unit),
      transfer C row attempt url = .op .getCredential k ∧
        k (.ok none) = .op (.validateTarget url) k' ∧
        k' (.ok none) = .op (.send .result request) k'' :=
  ⟨_, _, _, _, rfl, rfl, rfl⟩

/-- A row whose result is requested is handed to the transfer. -/
theorem storeResult_transfers {row : AsyncTask} {t' : ResolvedTemplate} {url : String}
    (h : Requests C row t' url) (attempt : ℤ) :
    ∃ k : Except Exn (Op.Ans .load) → Handler Unit, storeResult C attempt = .op .load k ∧
      k (.ok (some row)) = transfer C row attempt url := by
  refine ⟨_, rfl, ?_⟩
  have hrequire : C.require row.templateAlias row.templateVersion = .ok t' := by
    rw [Container.require, show C.registry row.templateAlias row.templateVersion = some t' from
      h.template]
  change (if row.status = succeeded ∧ row.resultRef = none ∧ C.hasResultStore then _ else _) = _
  rw [if_pos ⟨h.status, h.unstored, h.store⟩]
  change Prog.bind (Prog.bind (Prog.ofExcept (C.require _ _)) _) _ = _
  rw [hrequire]
  change (if t'.resultPolicy.mode ≠ .store then _ else _) = _
  rw [if_neg (not_not.mpr h.mode)]
  change Prog.bind (Prog.ofExcept (ExpressionError.lift (tryExtract _ _))) _ = _
  rw [h.found]
  rfl

/-- **Every delivery of a message requests the result once more.** -/
theorem fetched_again {c : Config (gateway C t)} {url : String} {attempt : ℤ}
    (hurl : requestedUrl C c.world.row = some url)
    (hsent : ∃ e ∈ c.log, sendsAttempt attempt e = true) :
    ∃ c', Run (failsRetryably C t) c c' ∧ c'.world = c.world ∧
      fetches c'.log = fetches c.log + 1 ∧ (Delivered c.log → Delivered c'.log) ∧
      ∃ e ∈ c'.log, sendsAttempt attempt e = true := by
  obtain ⟨t', ht'⟩ := requestedUrl_eq_some.mp hurl
  obtain ⟨k₁, h₁, hload⟩ := storeResult_transfers ht' attempt
  obtain ⟨k₂, k₃, request, k₄, h₂, h₃, h₄⟩ := transfer_requests (C := C) c.world.row attempt url
  let c₀ : Config (gateway C t) :=
    { c with prog := Function.update c.prog c.next (storeResult C attempt), next := c.next + 1,
             log := .spawn c.next (.storeResult attempt) :: c.log }
  have run₀ : Run (failsRetryably C t) c c₀ := Run.refl.more (.spawn c (.storeResult attempt))
  have prog₀ : c₀.prog c.next = .op .load k₁ := (Function.update_self _ _ _).trans h₁
  obtain ⟨c₁, run₁, hw₁, hp₁, hl₁⟩ := run_answered (a := .done) (G := failsRetryably C t) prog₀ rfl
    trivial
  obtain ⟨c₂, run₂, hw₂, hp₂, hl₂⟩ := run_answered (a := .text none) (G := failsRetryably C t)
    (hp₁.trans (hload.trans h₂)) rfl trivial
  obtain ⟨c₃, run₃, hw₃, hp₃, hl₃⟩ := run_answered (a := .text none) (G := failsRetryably C t)
    (hp₂.trans h₃) rfl fun _ => rfl
  obtain ⟨c₄, run₄, hw₄, -, hl₄⟩ := run_answered (a := .done) (G := failsRetryably C t)
    (hp₃.trans h₄) rfl trivial
  have hlog : c₄.log = _ :: _ :: _ :: _ :: .spawn c.next (.storeResult attempt) :: c.log :=
    hl₄.trans (by rw [hl₃, hl₂, hl₁])
  obtain ⟨e, he, hsends⟩ := hsent
  refine ⟨c₄, ((run₀.trans run₁).trans run₂).trans (run₃.trans run₄),
    hw₄.trans (hw₃.trans (hw₂.trans hw₁)), ?_, fun hd => ?_, e, ?_, hsends⟩
  · have quiet : ∀ {e : Happening} {l : Log}, isFetch e = false → fetches (e :: l) = fetches l :=
      fun he => List.countP_cons_of_neg (by rw [he]; exact Bool.false_ne_true)
    rw [hlog]
    exact (List.countP_cons_of_pos rfl).trans (congrArg (· + 1)
      ((quiet rfl).trans ((quiet rfl).trans ((quiet rfl).trans (quiet rfl)))))
  · rw [hlog]
    exact ⟨⟨e, he, asks_of_sends hsends⟩, hd⟩
  · rw [hlog]
    simp [he]

/-- There are runs with any number of requests. -/
theorem fetched_any {c : Config (gateway C t)} {url : String} {attempt : ℤ}
    (hurl : requestedUrl C c.world.row = some url)
    (hsent : ∃ e ∈ c.log, sendsAttempt attempt e = true) (hd : Delivered c.log) (n : ℕ) :
    ∃ c', Run (failsRetryably C t) c c' ∧ Delivered c'.log ∧ n ≤ fetches c'.log := by
  suffices h : ∃ c', Run (failsRetryably C t) c c' ∧ c'.world = c.world ∧ Delivered c'.log ∧
      n ≤ fetches c'.log ∧ ∃ e ∈ c'.log, sendsAttempt attempt e = true by
    obtain ⟨c', run, -, hd', hn, -⟩ := h
    exact ⟨c', run, hd', hn⟩
  induction n with
  | zero => exact ⟨c, .refl, rfl, hd, Nat.zero_le _, hsent⟩
  | succ n ih =>
      obtain ⟨c₁, run₁, hw₁, hd₁, hn, hsent₁⟩ := ih
      obtain ⟨c₂, run₂, hw₂, hcount, hd₂, hsent₂⟩ := fetched_again (hw₁ ▸ hurl) hsent₁
      exact ⟨c₂, run₁.trans run₂, hw₂.trans hw₁, hd₂ hd₁, by omega, hsent₂⟩

/-- **A result whose fetches fail is fetched a bounded number of times just where it is not
requested at all.** -/
theorem transfers_bounded_iff {c : Config (gateway C t)}
    (h : Reachable C t (failsRetryably C t) c) (hd : Delivered c.log)
    (hs : c.world.row.status = succeeded)
    (hsent : ∃ attempt, ∃ e ∈ c.log, sendsAttempt attempt e = true) :
    (∀ c', Run (failsRetryably C t) c c' → Delivered c'.log → TransferBounded c') ↔
      requestedUrl C c.world.row = none := by
  constructor
  · intro hbounded
    by_contra hne
    obtain ⟨url, hurl⟩ := Option.ne_none_iff_exists'.mp hne
    obtain ⟨attempt, hsent⟩ := hsent
    obtain ⟨c', run, hd', hmany⟩ := fetched_any hurl hsent hd 6
    have hle : (fetches c'.log : ℤ) ≤ 5 := (hbounded c' run hd').atMost
    omega
  · intro hnone c' run _
    have hreach : Reachable C t (failsRetryably C t) c' := by
      obtain ⟨w, hw, run₀⟩ := h
      exact ⟨w, hw, run₀.trans run⟩
    have hzero : fetches c'.log = 0 := by
      by_contra hpos
      have hsome := (requested_run hreach).asked (Nat.pos_of_ne_zero hpos)
      rw [requestedUrl_run h run hs, hnone] at hsome
      cases hsome
    refine ⟨by rw [hzero]; decide, fun e _ hmax => ?_⟩
    rw [hzero] at hmax
    exact absurd hmax (by decide)

end Runs

/-! ### Runs of the sample gateway -/

section Sample

variable {t : ResolvedTemplate}

/-- The sample gateway with a store for the results. -/
def storingContainer : Container :=
  { sampleContainer acceptedSample.toResolvedTemplate with hasResultStore := true }

abbrev storing : Machine effects Exn := gateway storingContainer acceptedSample.toResolvedTemplate

/-- The moves of a script, in another gateway. -/
def inGateway {C : Container} {t' : ResolvedTemplate} (script : Script t) :
    List (Move (gateway C t')) :=
  script.map fun
    | .spawn κ => .spawn κ
    | .act u γ => .act u γ
    | .halt u => .halt u

/-- The task is created, and a poll of it reports a success with the URL of the result. -/
def succeededWithUrl : Script t :=
  created [] ++
    polled 1 (.obj [("status", .str "succeeded"), ("url", .str "https://upstream/result")]) ++
    goesOn 1 0 [.done, .done, .done, .done, .done, .done, .done, .done]

/-- Handler `u` runs `store_result` for the attempt, and its fetch is answered with 503. -/
def fetchFails (u : ℕ) (time : Time) (attempt : ℤ) (rest : List Reply) : Script t :=
  .spawn (.storeResult attempt) ::
    goesOn u time ([.done, .text (some "key"), .text none, .done,
      .upstream (.ok { statusCode := 503 })] ++ rest)

/-- The retry is scheduled, and the inspector sends it an hour later. -/
def redispatched (u : ℕ) (time : Time) : Script t :=
  fetchFails u time 1 [.rat 0, .done, .done] ++
    .spawn .dispatchPendingTransfers :: goesOn (u + 1) (time + 3600) [.done, .done, .done]

def startsAttempt (attempt : ℤ) : Happening → Bool
  | .spawn _ (.storeResult n) => decide (n = attempt)
  | _ => false

/-- Every `store_result` runs on a message that was put on the bus, and no message is delivered
twice. -/
def deliveredOnce : Log → Bool
  | [] => true
  | .spawn _ (.storeResult attempt) :: l =>
      decide (l.countP (startsAttempt attempt) < l.countP (sendsAttempt attempt)) && deliveredOnce l
  | _ :: l => deliveredOnce l

theorem delivered_of_once {l : Log} (h : deliveredOnce l = true) : Delivered l := by
  induction l with
  | nil => trivial
  | cons e l ih =>
      cases e with
      | spawn u κ =>
          cases κ with
          | storeResult attempt =>
              obtain ⟨hcount, hrest⟩ := Bool.and_eq_true_iff.mp h
              obtain ⟨e, he, hsends⟩ := List.countP_pos_iff.mp
                ((Nat.zero_le _).trans_lt (of_decide_eq_true hcount))
              exact ⟨⟨e, he, asks_of_sends hsends⟩, ih hrest⟩
          | _ => exact ih h
      | _ => exact ih h

/-- The check of `failsRetryably`. -/
def failsRetryablyCheck (C : Container) (t : ResolvedTemplate) : (gateway C t).Check :=
  fun _ l u o r => match o, r with
    | .validateTarget _, .ok violation =>
        !(transferOf C t l u).attempt.isSome || Option.isNone violation
    | .recv .result, .ok (.ok response) =>
        !decide (200 ≤ response.statusCode ∧ response.statusCode < 300)
    | _, _ => true

theorem failsRetryably_of_check {C : Container} {w : World} {l : Log} {u : ℕ} {o : Op}
    {r : Except Exn o.Ans} (h : failsRetryablyCheck C t w l u o r = true) :
    failsRetryably C t w l u o r := by
  cases o with
  | validateTarget url =>
      cases r with
      | error x => trivial
      | ok violation =>
          intro hm
          rcases Bool.or_eq_true_iff.mp h with h | h
          · rw [hm] at h
            cases h
          · exact Option.isNone_iff_eq_none.mp h
  | recv purpose =>
      cases purpose with
      | result =>
          cases r with
          | error x => trivial
          | ok answer =>
              cases answer with
              | error exc => trivial
              | ok response => exact of_decide_eq_false ((Bool.not_eq_true' _).mp h)
      | _ => trivial
  | _ => trivial

/-- Six fetches of a result, every one for the first attempt, and none of them the last. -/
theorem fetched_forever :
    ∃ c : Config storing, Reachable _ _ (failsRetryably _ _) c ∧ deliveredOnce c.log = true ∧
      fetches c.log = 6 ∧ c.world.row.resultDegraded = none ∧ ¬ TransferBounded c := by
  have h : (((storing.initial ⟨sampleRow, 0⟩).exec (failsRetryablyCheck _ _)
      (inGateway (t := sampleTemplate) (succeededWithUrl ++ redispatched 2 0 ++
        redispatched 4 3600 ++ redispatched 6 7200 ++ redispatched 8 10800 ++
        redispatched 10 14400 ++ redispatched 12 18000))).any fun c => deliveredOnce c.log &&
          decide (fetches c.log = 6 ∧ c.world.row.resultDegraded = none)) = true := by
    decide +kernel
  obtain ⟨c, run, hc⟩ := Run.of_any_exec (fun _ _ _ _ _ => failsRetryably_of_check) h
  obtain ⟨hdelivered, hc⟩ := Bool.and_eq_true_iff.mp hc
  obtain ⟨hsix, hnone⟩ := of_decide_eq_true hc
  refine ⟨c, ⟨_, inserted_sampleRow, run⟩, hdelivered, hsix, hnone, fun h => ?_⟩
  have hle := h.atMost
  rw [hsix] at hle
  exact absurd hle (by decide)

/-- A poll reports a success with no URL, and `store_result` is sent for it. -/
def succeededWithoutUrl : Script t :=
  created [] ++ polled 1 (.obj [("status", .str "succeeded")]) ++
    goesOn 1 0 [.done, .done, .done, .done, .done, .done, .done, .done]

/-- What is checked of a run to a task that succeeded: its message was sent, and whether its result
is requested. -/
def transferDue (requested : Bool) (c : Config storing) : Bool :=
  deliveredOnce c.log && c.log.any (sendsAttempt 1) &&
    decide (c.world.row.status = succeeded ∧
      (requestedUrl storingContainer c.world.row).isSome = requested)

theorem bounded_iff_of_transferDue {requested : Bool} {c : Config storing}
    (h : transferDue requested c = true) :
    Delivered c.log ∧ c.world.row.status = succeeded ∧
      (∃ attempt, ∃ e ∈ c.log, sendsAttempt attempt e = true) ∧
      (requestedUrl storingContainer c.world.row).isSome = requested := by
  simp only [transferDue, Bool.and_eq_true] at h
  obtain ⟨⟨hdelivered, hsent⟩, hrow⟩ := h
  obtain ⟨e, he, hsends⟩ := List.any_eq_true.mp hsent
  obtain ⟨hs, hurl⟩ := of_decide_eq_true hrow
  exact ⟨delivered_of_once hdelivered, hs, ⟨1, e, he, hsends⟩, hurl⟩

/-- After one failed fetch the result is fetched without a bound; one without a URL never is. -/
theorem transfers_bounded_requested :
    ∃ c c' : Config storing, fetches c.log = 1 ∧
      (¬ ∀ d, Run (failsRetryably _ _) c d → Delivered d.log → TransferBounded d) ∧
      ∀ d, Run (failsRetryably _ _) c' d → Delivered d.log → TransferBounded d := by
  have h : (((storing.initial ⟨sampleRow, 0⟩).exec (failsRetryablyCheck _ _)
      (inGateway (t := sampleTemplate) (succeededWithUrl ++ redispatched 2 0))).any fun c =>
        decide (fetches c.log = 1) && transferDue true c) = true := by decide +kernel
  have h' : (((storing.initial ⟨sampleRow, 0⟩).exec (failsRetryablyCheck _ _)
      (inGateway (t := sampleTemplate) succeededWithoutUrl)).any (transferDue false)) = true := by
    decide +kernel
  obtain ⟨c, run, hc⟩ := Run.of_any_exec (fun _ _ _ _ _ => failsRetryably_of_check) h
  obtain ⟨c', run', hc'⟩ := Run.of_any_exec (fun _ _ _ _ _ => failsRetryably_of_check) h'
  obtain ⟨hone, hc⟩ := Bool.and_eq_true_iff.mp hc
  obtain ⟨hd, hs, hsent, hurl⟩ := bounded_iff_of_transferDue hc
  obtain ⟨hd', hs', hsent', hurl'⟩ := bounded_iff_of_transferDue hc'
  refine ⟨c, c', of_decide_eq_true hone, fun hbounded => ?_, ?_⟩
  · have hnone := (transfers_bounded_iff ⟨_, inserted_sampleRow, run⟩ hd hs hsent).mp hbounded
    rw [hnone] at hurl
    cases hurl
  · exact (transfers_bounded_iff ⟨_, inserted_sampleRow, run'⟩ hd' hs' hsent').mpr
      (Option.not_isSome_iff_eq_none.mp (Bool.eq_false_iff.mp hurl'))

end Sample

end AsyncGateway
