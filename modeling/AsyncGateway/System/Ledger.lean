import AsyncGateway.System.Changes
import Mathlib.Data.List.Perm.Subperm
import Mathlib.Data.List.Nodup

/-!
# System — the ledger of submissions

What the log says of the submissions: who claimed the intent (`claimers`), who sent a create call
(`creators`), who gave an attempt back (`refunders`), and whether an intent is held.  A handler does
each at most once, in this order (`Ledger`), and the row's attempts are the claims less the refunds.
-/

namespace AsyncGateway

open TaskStatus
open Interleave

variable {C : Container} {t : ResolvedTemplate}

/-! ### Reading the log -/

/-- The handlers that did what `p` says, the newest first. -/
def doers (p : Happening → Bool) (l : Log) : List ℕ := (l.filter p).map Event.thread

@[simp] theorem doers_nil (p : Happening → Bool) : doers p [] = [] := rfl

theorem doers_cons (p : Happening → Bool) (e : Happening) (l : Log) :
    doers p (e :: l) = if p e then e.thread :: doers p l else doers p l := by
  unfold doers
  rw [List.filter_cons]
  split <;> rfl

theorem doers_of_pos {p : Happening → Bool} {e : Happening} (h : p e = true) (l : Log) :
    doers p (e :: l) = e.thread :: doers p l := by
  rw [doers_cons, if_pos h]

theorem doers_of_neg {p : Happening → Bool} {e : Happening} (h : p e = false) (l : Log) :
    doers p (e :: l) = doers p l := by
  rw [doers_cons, h]
  rfl

theorem length_doers_cons (p : Happening → Bool) (e : Happening) (l : Log) :
    (doers p (e :: l)).length = (doers p l).length + if p e then 1 else 0 := by
  rw [doers_cons]
  split <;> rfl

theorem mem_doers {p : Happening → Bool} {l : Log} {u : ℕ} :
    u ∈ doers p l ↔ ∃ e ∈ l, p e = true ∧ e.thread = u := by
  simp [doers, and_assoc]

/-- A claim of the intent that hit. -/
def isClaim (e : Happening) : Bool :=
  match hit e with
  | some (.markSubmitIntent _) => true
  | _ => false

/-- A create call leaves. -/
def isCreate : Happening → Bool
  | .act _ (.send .create _) _ => true
  | _ => false

/-- A release of the intent that hit and gave the attempt back. -/
def isRefund (e : Happening) : Bool :=
  match hit e with
  | some (.releaseSubmitIntent _ _ decrement _ _ _ _ _) => decrement
  | _ => false

/-- A write that set the intent back to null: a release, or the reopening of a task in doubt. -/
def isClear (e : Happening) : Bool :=
  match hit e with
  | some (.releaseSubmitIntent _ _ _ _ _ _ _ _) => true
  | some (.advance .accepted _ _) => true
  | _ => false

theorem isClaim_of_still {e : Happening} {op : DaoOp} (hh : hit e = some op)
    (h : op.still = true) : isClaim e = false := by
  cases op <;> simp_all [isClaim, DaoOp.still]

abbrev claimers : Log → List ℕ := doers isClaim

abbrev creators : Log → List ℕ := doers isCreate

abbrev refunders : Log → List ℕ := doers isRefund

/-- The last claim was not cleared since. -/
def held : Log → Prop
  | [] => False
  | e :: l => isClaim e = true ∨ isClear e = false ∧ held l

/-- The handler's create call was answered with `r`. -/
def answered (l : Log) (u : ℕ) (r : Except HttpxError HttpResponse) : Prop :=
  .act u (.recv .create) (.ok r) ∈ l

/-- The create call of the handler is answered, or the handler is gone. -/
def ends (u : ℕ) : Happening → Bool
  | .act v (.recv .create) _ => decide (v = u)
  | .halt v => decide (v = u)
  | _ => false

/-- The handler's create call is over. -/
def ended (l : Log) (u : ℕ) : Prop := ∃ e ∈ l, ends u e = true

theorem ended.cons {l : Log} {u : ℕ} (h : ended l u) (e : Happening) : ended (e :: l) u :=
  h.imp fun _ he => ⟨List.mem_cons_of_mem _ he.1, he.2⟩

theorem ended_cons_self {l : Log} {u : ℕ} {e : Happening} (h : ends u e = true) :
    ended (e :: l) u := ⟨e, List.mem_cons_self, h⟩

/-! ### How far a handler is -/

/-- How far a handler is with a submission of its own, in four steps. -/
inductive Side : Type where
  | before
  | holding
  | sent
  | after
  deriving DecidableEq

def Stage.side : Stage → Side
  | .free => .before
  | .asking => .before
  | .told _ _ _ => .before
  | .claimed => .holding
  | .creating => .sent
  | .created _ => .sent
  | _ => .after

theorem underWay_iff {s : Stage} : s.underWay ↔ s.side = .holding ∨ s.side = .sent := by
  cases s <;> simp [Stage.underWay, Stage.side]

@[simp] theorem phase_nil (u : ℕ) : phase C t [] u = { stage := .gone } := rfl

theorem phase_act (l : Log) (u v : ℕ) (o : Op) (r : Except Exn o.Ans) :
    phase C t (.act u o r :: l) v = if v = u then (phase C t l v).next o r else phase C t l v := rfl

theorem phase_spawn (l : Log) (u v : ℕ) (κ : Work) :
    phase C t (.spawn u κ :: l) v = if v = u then {} else phase C t l v := rfl

theorem phase_halt (l : Log) (u v : ℕ) :
    phase C t (.halt u :: l) v =
      if v = u then { phase C t l v with stage := .gone } else phase C t l v := rfl

section Everyone

variable {log : Log} {v : ℕ} {p : ℕ → Local → Prop}

/-- What holds of every handler holds of every handler after an event, if it holds of the one the
event is of. -/
theorem everyone_act {o : Op} {r : Except Exn o.Ans} (hv : p v ((phase C t log v).next o r))
    (hu : ∀ u, p u (phase C t log u)) (u : ℕ) : p u (phase C t (.act v o r :: log) u) := by
  rw [phase_act]
  split
  · rename_i huv
    exact huv ▸ hv
  · exact hu u

theorem everyone_spawn {κ : Work} (hv : p v {}) (hu : ∀ u, p u (phase C t log u)) (u : ℕ) :
    p u (phase C t (.spawn v κ :: log) u) := by
  rw [phase_spawn]
  split
  · rename_i huv
    exact huv ▸ hv
  · exact hu u

theorem everyone_halt (hv : p v { phase C t log v with stage := .gone })
    (hu : ∀ u, p u (phase C t log u)) (u : ℕ) : p u (phase C t (.halt v :: log) u) := by
  rw [phase_halt]
  split
  · rename_i huv
    exact huv ▸ hv
  · exact hu u

end Everyone

variable {l : Local} {u : ℕ} {o : Op} {r : Except Exn o.Ans}

@[simp] theorem afterWrite_seen (op : DaoOp) (b : Bool) : (l.afterWrite b op).seen = l.seen := by
  cases op <;> simp only [Local.afterWrite] <;> split <;> rfl

/-- A handler sees the rows it saw before, and the row as it is. -/
theorem seen_next {w w' : World} {γ : Choice} (h : respond w o γ = some (r, w')) {row : AsyncTask}
    (hrow : row ∈ (l.next o r).seen) : row ∈ l.seen ∨ row = w.row := by
  have hr := respond_eq_some h
  have of_seen : ∀ found : Option AsyncTask, (found = none ∨ found = some w.row) →
      row ∈ found.toList ++ l.seen → row ∈ l.seen ∨ row = w.row := by
    rintro found (rfl | rfl) hm
    · exact .inl hm
    · exact (List.mem_cons.mp hm).symm
  cases o with
  | load =>
      obtain ⟨x, rfl⟩ | rfl := reply_load hr
      · exact .inl hrow
      · exact of_seen _ (.inr rfl) hrow
  | findTask channel identifier =>
      obtain ⟨x, rfl⟩ | rfl | rfl := reply_findTask hr
      · exact .inl hrow
      · exact of_seen _ (.inl rfl) hrow
      · exact of_seen _ (.inr rfl) hrow
  | apply op also =>
      cases r with
      | error x => exact .inl hrow
      | ok b => exact .inl (afterWrite_seen (l := l) op b ▸ hrow)
  | send p request => cases p <;> cases r <;> exact .inl hrow
  | recv p =>
      cases p with
      | confirm =>
          cases r with
          | error x => exact .inl hrow
          | ok a =>
              simp only [Local.next] at hrow
              split at hrow <;> exact .inl hrow
      | _ => cases r <;> exact .inl hrow
  | enqueue message =>
      cases r with
      | error x => exact .inl hrow
      | ok a =>
          simp only [Local.next] at hrow
          split at hrow
          · split at hrow <;> exact .inl hrow
          · exact .inl hrow
  | _ => cases r <;> exact .inl hrow

/-- What an operation does to how far its handler is. -/
inductive Turn (C : Container) (t : ResolvedTemplate) (l : Local) (u : ℕ) :
    Happening → Stage → Prop where
  | stay {e : Happening} (quiet : isClaim e = false ∧ isCreate e = false ∧ isRefund e = false) :
      Turn C t l u e l.stage
  | claim {startedAt : Option Time} {also : Option Message} (hs : l.stage = .free) :
      Turn C t l u (.act u (.apply (.markSubmitIntent startedAt) also) (.ok true)) .claimed
  | create {request : RenderedRequest} {r : Except Exn Unit} (hs : l.stage = .claimed) :
      Turn C t l u (.act u (.send .create request) r) .creating
  | answer {a : Except HttpxError HttpResponse} (hs : l.stage = .creating) :
      Turn C t l u (.act u (.recv .create) (.ok a)) (.created a)
  | lost {x : Exn} (hs : l.stage = .creating) :
      Turn C t l u (.act u (.recv .create) (.error x)) .spent
  | submitted {upstreamTaskId : String} {rawStatus : Option String} {snapshot : Option Json}
      {nextPollAt : Time} {startedAt : Option Time} {also : Option Message} {b : Bool}
      {a : Except HttpxError HttpResponse} (hs : l.stage = .created a) (hc : createClass a = none) :
      Turn C t l u
        (.act u (.apply (.markSubmitted upstreamTaskId rawStatus snapshot nextPollAt startedAt)
          also) (.ok b))
        (if b ∧ l.loaded.any (·.cancelRequested) then .owing else .spent)
  | release {expected : List TaskStatus} {nextPollAt : Time} {decrement : Bool}
      {code : Option ErrorCode} {message : Option String} {retryable : Option Bool}
      {attributes : Option Json.Fields} {deadline : Option Time} {also : Option Message} {b : Bool}
      (ha : AllowedRelease l expected decrement) :
      Turn C t l u
        (.act u (.apply (.releaseSubmitIntent expected nextPollAt decrement code message retryable
          attributes deadline) also) (.ok b)) .spent
  | doubt {code : ErrorCode} {message : Option String} {expected : Option (List TaskStatus)}
      {also : Option Message} {b : Bool} {a : Except HttpxError HttpResponse}
      (hs : l.stage = .created a) :
      Turn C t l u (.act u (.apply (.enterUnknown code message expected) also) (.ok b)) .spent
  | giveUp {dst : TaskStatus} {expected : Option (List TaskStatus)} {values : List Assign}
      {also : Option Message} {b : Bool} (hs : l.holds) :
      Turn C t l u (.act u (.apply (.advance dst expected values) also) (.ok b)) .spent
  | inquire {request : RenderedRequest} (hq : AllowedQuery C l) :
      Turn C t l u (.act u (.send .confirm request) (.ok ())) .asking
  | hear {a : Except HttpxError HttpResponse} {row : AsyncTask} (hs : l.stage = .asking)
      (hl : l.loaded = some row) :
      Turn C t l u (.act u (.recv .confirm) (.ok a)) (.told row l.bearer a)
  | unheard {r : Except Exn (Except HttpxError HttpResponse)} (hs : l.stage = .asking) :
      Turn C t l u (.act u (.recv .confirm) r) .spent
  | remind {message : Message} (hs : l.stage = .owing) (hm : message.name = "cancel_upstream") :
      Turn C t l u (.act u (.enqueue message) (.ok ())) .spent

theorem turn_of_write {op : DaoOp} {also : Option Message} {b : Bool}
    (ha : AllowedWrite C t l op) :
    Turn C t l u (.act u (.apply op also) (.ok b)) (l.afterWrite b op).stage := by
  cases op with
  | markSubmitIntent startedAt =>
      cases b with
      | false => exact .stay ⟨rfl, rfl, rfl⟩
      | true => exact .claim ha.1
  | markSubmitted upstreamTaskId rawStatus snapshot nextPollAt startedAt =>
      obtain ⟨-, a, hs, hc⟩ := ha
      simp only [Local.afterWrite, apply_ite Local.stage]
      exact .submitted hs hc
  | advance dst expected values =>
      simp only [Local.afterWrite]
      split
      · exact .giveUp (.inl ‹_›)
      · exact .giveUp (.inr ⟨_, ‹_›⟩)
      · exact .stay ⟨by cases b <;> rfl, rfl, by cases b <;> rfl⟩
  | enterUnknown code message expected =>
      obtain ⟨-, a, hs⟩ := ha
      exact .doubt hs
  | releaseSubmitIntent expected nextPollAt decrement code message retryable attributes deadline =>
      exact .release ha.2
  | _ => exact .stay ⟨by cases b <;> rfl, rfl, by cases b <;> rfl⟩

/-- **How far a handler is after an allowed operation.** -/
theorem turn_cases (ha : Allowed C t l o) :
    Turn C t l u (.act u o r) (l.next o r).stage := by
  have stay : isClaim (.act u o r) = false → isCreate (.act u o r) = false →
      isRefund (.act u o r) = false → (l.next o r).stage = l.stage →
      Turn C t l u (.act u o r) (l.next o r).stage :=
    fun h₁ h₂ h₃ h => h.symm ▸ .stay ⟨h₁, h₂, h₃⟩
  cases o with
  | apply op also =>
      cases r with
      | error x => exact stay rfl rfl rfl rfl
      | ok b => exact turn_of_write ha
  | send p request =>
      cases p with
      | create => exact .create ha
      | confirm =>
          cases r with
          | error x => exact stay rfl rfl rfl rfl
          | ok a => exact .inquire ha
      | _ => exact stay rfl rfl rfl (by cases r <;> rfl)
  | recv p =>
      cases p with
      | create =>
          cases r with
          | error x => exact .lost ha
          | ok a => exact .answer ha
      | confirm =>
          cases r with
          | error x => exact .unheard ha
          | ok a =>
              simp only [Local.next]
              split
              · exact .hear ha ‹_›
              · exact .unheard ha
      | _ => exact stay rfl rfl rfl (by cases r <;> rfl)
  | enqueue message =>
      cases r with
      | error x => exact stay rfl rfl rfl rfl
      | ok a =>
          simp only [Local.next]
          split
          · split
            · exact .remind ‹_› ‹_›
            · exact .stay ⟨rfl, rfl, rfl⟩
          · exact .stay ⟨rfl, rfl, rfl⟩
  | load => cases r <;> exact .stay ⟨rfl, rfl, rfl⟩
  | findTask channel identifier => cases r <;> exact .stay ⟨rfl, rfl, rfl⟩
  | getCredential => cases r <;> exact .stay ⟨rfl, rfl, rfl⟩
  | _ => exact stay rfl rfl rfl (by cases r <;> rfl)

/-- A confirmation query was sent. -/
def Stage.inquired : Stage → Prop
  | .asking => True
  | .told _ _ _ => True
  | _ => False

/-- Who has sent a query sent it before, or sends it now. -/
theorem inquired_next (ha : Allowed C t l o) (hs : (l.next o r).stage.inquired) :
    l.stage.inquired ∨ AllowedQuery C l ∧
      ∃ request, (.act u o r : Happening) = .act u (.send .confirm request) (.ok ()) := by
  have turn := turn_cases (u := u) (r := r) ha
  generalize (l.next o r).stage = s at turn hs
  generalize (.act u o r : Happening) = e at turn ⊢
  cases turn with
  | stay quiet => exact .inl hs
  | inquire hq => exact .inr ⟨hq, _, rfl⟩
  | hear hasking hl => exact .inl (by rw [hasking]; trivial)
  | submitted _ _ => split at hs <;> exact hs.elim
  | _ => exact hs.elim

/-- Who asks has asked, or asks now. -/
theorem asking_next (ha : Allowed C t l o) (hs : (l.next o r).stage = .asking) :
    l.stage = .asking ∨ AllowedQuery C l := by
  have turn := turn_cases (u := 0) (r := r) ha
  generalize (l.next o r).stage = s at turn hs
  generalize (.act 0 o r : Happening) = e at turn
  cases turn with
  | stay quiet => exact .inl hs
  | inquire hq => exact .inr hq
  | submitted _ _ => split at hs <;> cases hs
  | _ => cases hs

/-- Who was told something was told it before, or is told it now. -/
theorem told_next {row : AsyncTask} {bearer : Option String} {a : Except HttpxError HttpResponse}
    (ha : Allowed C t l o) (hs : (l.next o r).stage = .told row bearer a) :
    l.stage = .told row bearer a ∨ l.stage = .asking ∧ l.loaded = some row ∧ l.bearer = bearer ∧
      (.act u o r : Happening) = .act u (.recv .confirm) (.ok a) := by
  have turn := turn_cases (u := u) (r := r) ha
  generalize (l.next o r).stage = s at turn hs
  generalize (.act u o r : Happening) = e at turn ⊢
  cases turn with
  | stay quiet => exact .inl hs
  | hear hasking hl =>
      cases hs
      exact .inr ⟨hasking, hl, rfl, rfl⟩
  | submitted _ _ => split at hs <;> cases hs
  | _ => cases hs

/-! ### The ledger -/

/-- What the log says of the submissions, whatever the run. -/
structure Ledger (C : Container) (t : ResolvedTemplate) (l : Log) : Prop where
  claims : (claimers l).Nodup
  creates : (creators l).Nodup
  refunds : (refunders l).Nodup
  creators_claimed : ∀ u ∈ creators l, u ∈ claimers l
  refunders_claimed : ∀ u ∈ refunders l, u ∈ claimers l
  before : ∀ u, (phase C t l u).stage.side = .before → u ∉ claimers l
  holding : ∀ u, (phase C t l u).stage.side = .holding →
    u ∈ claimers l ∧ u ∉ creators l ∧ u ∉ refunders l
  sent : ∀ u, (phase C t l u).stage.side = .sent →
    u ∈ claimers l ∧ u ∈ creators l ∧ u ∉ refunders l
  accounted : ∀ u ∈ creators l, (phase C t l u).stage = .creating ∨ ended l u
  told : ∀ u r, (phase C t l u).stage = .created r → answered l u r
  /-- Who gave the attempt back of a create call has the answer to it. -/
  refunded : ∀ u ∈ refunders l, u ∈ creators l →
    ∃ r c, answered l u r ∧ createClass r = some c ∧ c.refunds

theorem Ledger.nil : Ledger C t [] := by
  constructor <;> simp [Stage.side]

theorem Ledger.spawn {log : Log} (h : Ledger C t log) {v : ℕ} (κ : Work)
    (hv : ∀ e ∈ log, e.thread ≠ v) : Ledger C t (.spawn v κ :: log) := by
  have fresh : ∀ p, v ∉ doers p log := fun p hm => by
    obtain ⟨e, he, -, ht⟩ := mem_doers.mp hm
    exact hv e he ht
  refine ⟨h.claims, h.creates, h.refunds, h.creators_claimed, h.refunders_claimed, ?_, ?_, ?_, ?_,
    ?_, ?_⟩
  · intro u hs
    rw [phase_spawn] at hs
    split at hs
    · rename_i huv
      subst huv
      exact fresh _
    · exact h.before u hs
  · intro u hs
    rw [phase_spawn] at hs
    split at hs
    · cases hs
    · exact h.holding u hs
  · intro u hs
    rw [phase_spawn] at hs
    split at hs
    · cases hs
    · exact h.sent u hs
  · intro u hu
    rw [phase_spawn, if_neg (fun he => fresh _ (he ▸ hu))]
    exact (h.accounted u hu).imp id fun he => he.cons _
  · intro u r hs
    rw [phase_spawn] at hs
    split at hs
    · cases hs
    · exact List.mem_cons_of_mem _ (h.told u r hs)
  · intro u hu hc
    obtain ⟨r, c, hr, hc⟩ := h.refunded u hu hc
    exact ⟨r, c, List.mem_cons_of_mem _ hr, hc⟩

theorem Ledger.halt {log : Log} (h : Ledger C t log) (v : ℕ) : Ledger C t (.halt v :: log) := by
  have stage : ∀ u, (phase C t (.halt v :: log) u).stage = .gone ∨
      (phase C t (.halt v :: log) u).stage = (phase C t log u).stage := by
    intro u
    rw [phase_halt]
    split
    · exact .inl rfl
    · exact .inr rfl
  refine ⟨h.claims, h.creates, h.refunds, h.creators_claimed, h.refunders_claimed, ?_, ?_, ?_, ?_,
    ?_, ?_⟩
  · intro u hs
    rcases stage u with he | he <;> rw [he] at hs
    · cases hs
    · exact h.before u hs
  · intro u hs
    rcases stage u with he | he <;> rw [he] at hs
    · cases hs
    · exact h.holding u hs
  · intro u hs
    rcases stage u with he | he <;> rw [he] at hs
    · cases hs
    · exact h.sent u hs
  · intro u hu
    by_cases huv : u = v
    · exact .inr (ended_cons_self (by simp [ends, huv]))
    · rw [phase_halt, if_neg huv]
      exact (h.accounted u hu).imp id fun he => he.cons _
  · intro u r hs
    rcases stage u with he | he <;> rw [he] at hs
    · cases hs
    · exact List.mem_cons_of_mem _ (h.told u r hs)
  · intro u hu hc
    obtain ⟨r, c, hr, hc⟩ := h.refunded u hu hc
    exact ⟨r, c, List.mem_cons_of_mem _ hr, hc⟩

section Growing

variable {log : Log} {v : ℕ} {e : Happening} {s : Stage}

/-- The stages before and after an event of `v`. -/
structure Turned (C : Container) (t : ResolvedTemplate) (log : Log) (v : ℕ) (e : Happening)
    (s : Stage) : Prop where
  thread : e.thread = v
  self : (phase C t (e :: log) v).stage = s
  other : ∀ u, u ≠ v → phase C t (e :: log) u = phase C t log u

theorem Turned.forall (h : Turned C t log v e s) {p : ℕ → Stage → Prop} (hv : p v s)
    (hu : ∀ u, u ≠ v → p u (phase C t log u).stage) : ∀ u, p u (phase C t (e :: log) u).stage := by
  intro u
  by_cases huv : u = v
  · rw [huv, h.self]
    exact hv
  · rw [h.other u huv]
    exact hu u huv

theorem Ledger.claim (h : Ledger C t log) (hv : Turned C t log v e s) (hc : isClaim e = true)
    (hn : isCreate e = false) (hr : isRefund e = false)
    (hb : (phase C t log v).stage.side = .before) (hs : s.side = .holding) :
    Ledger C t (e :: log) := by
  have hv₀ := h.before v hb
  have grown : claimers (e :: log) = v :: claimers log := by
    rw [claimers, doers_of_pos hc, hv.thread]
  have creates : creators (e :: log) = creators log := doers_of_neg hn log
  have refunds : refunders (e :: log) = refunders log := doers_of_neg hr log
  -- who has not claimed did nothing that only a claim allows
  have hcr : v ∉ creators log := fun hm => hv₀ (h.creators_claimed v hm)
  have hre : v ∉ refunders log := fun hm => hv₀ (h.refunders_claimed v hm)
  constructor
  case claims =>
    rw [grown]
    exact List.nodup_cons.mpr ⟨hv₀, h.claims⟩
  case creates =>
    rw [creates]
    exact h.creates
  case refunds =>
    rw [refunds]
    exact h.refunds
  case creators_claimed =>
    rw [grown, creates]
    exact fun u hu => List.mem_cons_of_mem _ (h.creators_claimed u hu)
  case refunders_claimed =>
    rw [grown, refunds]
    exact fun u hu => List.mem_cons_of_mem _ (h.refunders_claimed u hu)
  case before =>
    rw [grown]
    refine hv.forall (p := fun u s => s.side = .before → u ∉ v :: claimers log) ?_ ?_
    · rw [hs]
      rintro ⟨⟩
    · intro u huv hu hm
      exact (List.mem_cons.mp hm).elim huv (h.before u hu)
  case holding =>
    rw [grown, creates, refunds]
    refine hv.forall (p := fun u s => s.side = .holding →
      u ∈ v :: claimers log ∧ u ∉ creators log ∧ u ∉ refunders log) ?_ ?_
    · exact fun _ => ⟨List.mem_cons_self, hcr, hre⟩
    · exact fun u _ hu => (h.holding u hu).imp_left (List.mem_cons_of_mem _)
  case sent =>
    rw [grown, creates, refunds]
    refine hv.forall (p := fun u s => s.side = .sent →
      u ∈ v :: claimers log ∧ u ∈ creators log ∧ u ∉ refunders log) ?_ ?_
    · rw [hs]
      rintro ⟨⟩
    · exact fun u _ hu => (h.sent u hu).imp_left (List.mem_cons_of_mem _)
  case accounted =>
    rw [creates]
    refine hv.forall (p := fun u s => u ∈ creators log → s = .creating ∨ ended (e :: log) u) ?_ ?_
    · exact fun hm => absurd hm hcr
    · exact fun u _ hu => (h.accounted u hu).imp_right fun he => he.cons _
  case told =>
    refine hv.forall (p := fun u s => ∀ r, s = .created r → answered (e :: log) u r) ?_ ?_
    · rintro r rfl
      cases hs
    · exact fun u _ r hu => List.mem_cons_of_mem _ (h.told u r hu)
  case refunded =>
    rw [creates, refunds]
    intro u hu hcu
    obtain ⟨r, c, hr, hc⟩ := h.refunded u hu hcu
    exact ⟨r, c, List.mem_cons_of_mem _ hr, hc⟩

theorem Ledger.create (h : Ledger C t log) (hv : Turned C t log v e s) (hc : isClaim e = false)
    (hn : isCreate e = true) (hr : isRefund e = false)
    (hb : (phase C t log v).stage.side = .holding) (hs : s = .creating) :
    Ledger C t (e :: log) := by
  -- who holds the claim has neither sent the call nor given the claim back
  obtain ⟨hcl, hcr, hre⟩ := h.holding v hb
  have claims : claimers (e :: log) = claimers log := doers_of_neg hc log
  have grown : creators (e :: log) = v :: creators log := by
    rw [creators, doers_of_pos hn, hv.thread]
  have refunds : refunders (e :: log) = refunders log := doers_of_neg hr log
  subst hs
  constructor
  case claims =>
    rw [claims]
    exact h.claims
  case creates =>
    rw [grown]
    exact List.nodup_cons.mpr ⟨hcr, h.creates⟩
  case refunds =>
    rw [refunds]
    exact h.refunds
  case creators_claimed =>
    rw [claims, grown]
    exact fun u hu => (List.mem_cons.mp hu).elim (fun h => h ▸ hcl) (h.creators_claimed u)
  case refunders_claimed =>
    rw [claims, refunds]
    exact h.refunders_claimed
  case before =>
    rw [claims]
    refine hv.forall (p := fun u s => s.side = .before → u ∉ claimers log) ?_ fun u _ => h.before u
    rintro ⟨⟩
  case holding =>
    rw [claims, grown, refunds]
    refine hv.forall (p := fun u s => s.side = .holding →
      u ∈ claimers log ∧ u ∉ v :: creators log ∧ u ∉ refunders log) ?_ ?_
    · rintro ⟨⟩
    · intro u huv hu
      obtain ⟨h₁, h₂, h₃⟩ := h.holding u hu
      exact ⟨h₁, fun hm => (List.mem_cons.mp hm).elim huv h₂, h₃⟩
  case sent =>
    rw [claims, grown, refunds]
    refine hv.forall (p := fun u s => s.side = .sent →
      u ∈ claimers log ∧ u ∈ v :: creators log ∧ u ∉ refunders log) ?_ ?_
    · exact fun _ => ⟨hcl, List.mem_cons_self, hre⟩
    · intro u _ hu
      obtain ⟨h₁, h₂, h₃⟩ := h.sent u hu
      exact ⟨h₁, List.mem_cons_of_mem _ h₂, h₃⟩
  case accounted =>
    rw [grown]
    refine hv.forall (p := fun u s => u ∈ v :: creators log →
      s = .creating ∨ ended (e :: log) u) ?_ ?_
    · exact fun _ => .inl rfl
    · intro u huv hu
      exact (h.accounted u ((List.mem_cons.mp hu).resolve_left huv)).imp_right fun he => he.cons _
  case told =>
    refine hv.forall (p := fun u s => ∀ r, s = .created r → answered (e :: log) u r) ?_ ?_
    · rintro r ⟨⟩
    · exact fun u _ r hu => List.mem_cons_of_mem _ (h.told u r hu)
  case refunded =>
    rw [grown, refunds]
    intro u hu hcu
    have huv : u ≠ v := fun he => hre (he ▸ hu)
    obtain ⟨r, c, hr, hc⟩ := h.refunded u hu ((List.mem_cons.mp hcu).resolve_left huv)
    exact ⟨r, c, List.mem_cons_of_mem _ hr, hc⟩

theorem Ledger.quiet (h : Ledger C t log) (hv : Turned C t log v e s) (hc : isClaim e = false)
    (hn : isCreate e = false)
    (hs : s.side = (phase C t log v).stage.side ∨ s.side = .after)
    (hr : isRefund e = true → s.side = .after ∧ v ∈ claimers log ∧ v ∉ refunders log ∧
      (v ∈ creators log → ∃ r c, answered log v r ∧ createClass r = some c ∧ c.refunds))
    (ho : (phase C t log v).stage = .creating → s = .creating ∨ ended (e :: log) v)
    (ht : ∀ r, s = .created r → answered (e :: log) v r) : Ledger C t (e :: log) := by
  have claims : claimers (e :: log) = claimers log := doers_of_neg hc log
  have creates : creators (e :: log) = creators log := doers_of_neg hn log
  have refunds : ∀ u, u ∈ refunders (e :: log) → isRefund e = true ∧ u = v ∨ u ∈ refunders log := by
    intro u hu
    rw [refunders, doers_cons] at hu
    split at hu
    · rename_i he
      exact (List.mem_cons.mp hu).imp_left fun h => ⟨he, h.trans hv.thread⟩
    · exact .inr hu
  have side : ∀ x, x ≠ .after → s.side = x → (phase C t log v).stage.side = x := fun x hx h =>
    hs.elim (fun he => he ▸ h) fun he => absurd (h.symm.trans he) hx
  -- only a handler that is then done refunds
  have spared : ∀ u, (u = v → s.side ≠ .after) → u ∉ refunders log →
      u ∉ refunders (e :: log) := by
    intro u hu hno hm
    obtain ⟨he, huv⟩ | hm := refunds u hm
    · exact hu huv (hr he).1
    · exact hno hm
  constructor
  case claims =>
    rw [claims]
    exact h.claims
  case creates =>
    rw [creates]
    exact h.creates
  case refunds =>
    rw [refunders, doers_cons]
    split
    · rw [hv.thread]
      exact List.nodup_cons.mpr ⟨(hr ‹_›).2.2.1, h.refunds⟩
    · exact h.refunds
  case creators_claimed =>
    rw [claims, creates]
    exact h.creators_claimed
  case refunders_claimed =>
    rw [claims]
    intro u hu
    obtain ⟨he, rfl⟩ | hu := refunds u hu
    · exact (hr he).2.1
    · exact h.refunders_claimed u hu
  case before =>
    rw [claims]
    exact hv.forall (p := fun u s => s.side = .before → u ∉ claimers log)
      (fun hb => h.before v (side _ (by decide) hb)) fun u _ => h.before u
  case holding =>
    rw [claims, creates]
    refine hv.forall (p := fun u s => s.side = .holding →
      u ∈ claimers log ∧ u ∉ creators log ∧ u ∉ refunders (e :: log)) ?_ ?_
    · intro hb
      obtain ⟨h₁, h₂, h₃⟩ := h.holding v (side _ (by decide) hb)
      exact ⟨h₁, h₂, spared v (fun _ ha => absurd (hb.symm.trans ha) (by decide)) h₃⟩
    · intro u huv hu
      obtain ⟨h₁, h₂, h₃⟩ := h.holding u hu
      exact ⟨h₁, h₂, spared u (fun h => absurd h huv) h₃⟩
  case sent =>
    rw [claims, creates]
    refine hv.forall (p := fun u s => s.side = .sent →
      u ∈ claimers log ∧ u ∈ creators log ∧ u ∉ refunders (e :: log)) ?_ ?_
    · intro hb
      obtain ⟨h₁, h₂, h₃⟩ := h.sent v (side _ (by decide) hb)
      exact ⟨h₁, h₂, spared v (fun _ ha => absurd (hb.symm.trans ha) (by decide)) h₃⟩
    · intro u huv hu
      obtain ⟨h₁, h₂, h₃⟩ := h.sent u hu
      exact ⟨h₁, h₂, spared u (fun h => absurd h huv) h₃⟩
  case accounted =>
    rw [creates]
    refine hv.forall (p := fun u s => u ∈ creators log → s = .creating ∨ ended (e :: log) u) ?_ ?_
    · exact fun hm => (h.accounted v hm).elim ho fun he => .inr (he.cons _)
    · exact fun u _ hu => (h.accounted u hu).imp_right fun he => he.cons _
  case told =>
    exact hv.forall (p := fun u s => ∀ r, s = .created r → answered (e :: log) u r) ht
      fun u _ r hu => List.mem_cons_of_mem _ (h.told u r hu)
  case refunded =>
    rw [creates]
    intro u hu hcu
    obtain ⟨r, c, ha, hc⟩ : ∃ r c, answered log u r ∧ createClass r = some c ∧ c.refunds := by
      obtain ⟨he, rfl⟩ | hu := refunds u hu
      · exact (hr he).2.2.2 hcu
      · exact h.refunded u hu hcu
    exact ⟨r, c, List.mem_cons_of_mem _ ha, hc⟩

theorem Ledger.turn (h : Ledger C t log) (hv : Turned C t log v e s)
    (turn : Turn C t (phase C t log v) v e s) : Ledger C t (e :: log) := by
  -- an event that is no claim, no create call and no refund
  have plain : isClaim e = false → isCreate e = false → isRefund e = false →
      s.side = (phase C t log v).stage.side ∨ s.side = .after →
      ((phase C t log v).stage = .creating → s = .creating ∨ ended (e :: log) v) →
      (∀ r, s = .created r → answered (e :: log) v r) → Ledger C t (e :: log) :=
    fun h₁ h₂ h₃ h₄ => h.quiet hv h₁ h₂ h₄ (by simp [h₃])
  cases turn with
  | stay quiet =>
      exact plain quiet.1 quiet.2.1 quiet.2.2 (.inl rfl) .inl fun r hr =>
        List.mem_cons_of_mem _ (h.told v r hr)
  | claim hs => exact h.claim hv rfl rfl rfl (by rw [hs]; rfl) rfl
  | create hs => exact h.create hv rfl rfl rfl (by rw [hs]; rfl) rfl
  | answer hs =>
      refine plain rfl rfl rfl (.inl (by rw [hs]; rfl)) ?_ ?_
      · exact fun _ => .inr (ended_cons_self (by simp [ends]))
      · rintro r ⟨⟩
        exact List.mem_cons_self
  | lost hs =>
      exact plain rfl rfl rfl (.inr rfl) (fun _ => .inr (ended_cons_self (by simp [ends]))) (by simp)
  | @submitted _ _ _ _ _ _ b _ hs hc =>
      refine plain (by cases b <;> rfl) rfl (by cases b <;> rfl) (.inr ?_) (by simp [hs]) ?_
      · split <;> rfl
      · intro r hr
        split at hr <;> cases hr
  | @release _ _ decrement _ _ _ _ _ _ b ha =>
      refine h.quiet hv (by cases b <;> rfl) rfl (.inr rfl) ?_ ?_ (by simp)
      · intro hr
        obtain ⟨rfl, rfl⟩ : b = true ∧ decrement = true := by
          cases b
          · cases hr
          · exact ⟨rfl, hr⟩
        obtain ⟨-, -, hs⟩ | ⟨-, r, c, hs, hc, hd⟩ := ha
        · obtain ⟨h₁, h₂, h₃⟩ := h.holding v (by rw [hs]; rfl)
          exact ⟨rfl, h₁, h₃, fun hm => absurd hm h₂⟩
        · obtain ⟨h₁, -, h₃⟩ := h.sent v (by rw [hs]; rfl)
          have hc' := (hd.resolve_right fun h => by cases h.1).2
          exact ⟨rfl, h₁, h₃, fun _ => ⟨r, c, h.told v r hs, hc, hc'⟩⟩
      · obtain ⟨-, -, hs⟩ | ⟨-, r, c, hs, -⟩ := ha <;> simp [hs]
  | @doubt _ _ _ _ b _ hs =>
      exact plain (by cases b <;> rfl) rfl (by cases b <;> rfl) (.inr rfl) (by simp [hs]) (by simp)
  | @giveUp _ _ _ _ b hs =>
      refine plain (by cases b <;> rfl) rfl (by cases b <;> rfl) (.inr rfl) ?_ (by simp)
      obtain hs | ⟨r, hs⟩ := hs <;> simp [hs]
  | inquire hq =>
      exact plain rfl rfl rfl (.inl (by rw [hq.1]; rfl)) (by simp [hq.1]) (by simp)
  | hear hs hl => exact plain rfl rfl rfl (.inl (by rw [hs]; rfl)) (by simp [hs]) (by simp)
  | unheard hs => exact plain rfl rfl rfl (.inr rfl) (by simp [hs]) (by simp)
  | remind hs hm => exact plain rfl rfl rfl (.inr rfl) (by simp [hs]) (by simp)

end Growing

theorem turned_act {log : Log} {v : ℕ} :
    Turned C t log v (.act v o r) ((phase C t log v).next o r).stage where
  thread := rfl
  self := by rw [phase_act, if_pos rfl]
  other u hu := by rw [phase_act, if_neg hu]

theorem Ledger.act {log : Log} (h : Ledger C t log) {v : ℕ}
    (ha : Allowed C t (phase C t log v) o) : Ledger C t (.act v o r :: log) :=
  h.turn turned_act (turn_cases ha)

/-- **In every run, a handler claims, sends and gives back at most once, in this order.** -/
theorem ledger_run {G : (gateway C t).Condition} {w : World} {c : Config (gateway C t)}
    (h : Run G ((gateway C t).initial w) c) : Ledger C t c.log :=
  Run.invariant (M := gateway C t) (fun _ l => Ledger C t l) follows_body (Keeps.initial w)
    Ledger.nil
    (fun _ _ _ κ hv hl => hl.spawn κ hv) (fun _ _ _ _ _ _ _ hl ha _ _ => hl.act ha)
    (fun _ _ v hl => hl.halt v) h

/-- In a run, an operation that is asked for is allowed. -/
theorem allowed_run {G : (gateway C t).Condition} {w : World} {c : Config (gateway C t)}
    (h : Run G ((gateway C t).initial w) c) {k : Except Exn o.Ans → Handler Unit}
    (hp : c.prog u = .op o k) : Allowed C t (phase C t c.log u) o :=
  (Keeps.run follows_body (Keeps.initial w) h).allows hp

/-- **What every allowed operation and every stop preserve holds on**, the ledger given. -/
theorem gateway_invariant_from {G H : (gateway C t).Condition} {w : World}
    {c₀ c : Config (gateway C t)} (Inv : World → Log → Prop)
    (h₀ : Run H ((gateway C t).initial w) c₀) (start : Inv c₀.world c₀.log)
    (spawn : ∀ w l u κ, Ledger C t l → (∀ e ∈ l, e.thread ≠ u) → Inv w l → Inv w (.spawn u κ :: l))
    (act : ∀ w l u o γ r w', Ledger C t l → Inv w l → Allowed C t (phase C t l u) o →
      respond w o γ = some (r, w') → G w l u o r → Inv w' (.act u o r :: l))
    (halt : ∀ w l u, Ledger C t l → Inv w l → Inv w (.halt u :: l))
    (h : Run G c₀ c) : Inv c.world c.log := by
  refine (Run.invariant (M := gateway C t) (fun w l => Ledger C t l ∧ Inv w l) follows_body
    (Keeps.run follows_body (Keeps.initial w) h₀) (by exact ⟨ledger_run h₀, start⟩) ?_ ?_ ?_ h).2
  · exact fun w l u κ hu hl => ⟨hl.1.spawn κ hu, spawn w l u κ hl.1 hu hl.2⟩
  · exact fun w l u o γ r w' hl ha hw hg => ⟨hl.1.act ha, act w l u o γ r w' hl.1 hl.2 ha hw hg⟩
  · exact fun w l u hl => ⟨hl.1.halt u, halt w l u hl.1 hl.2⟩

/-- **What the start, every allowed operation and every stop preserve holds in every run**, the
ledger given. -/
theorem gateway_invariant {G : (gateway C t).Condition} {w : World} {c : Config (gateway C t)}
    (Inv : World → Log → Prop) (start : Inv w [])
    (spawn : ∀ w l u κ, Ledger C t l → (∀ e ∈ l, e.thread ≠ u) → Inv w l → Inv w (.spawn u κ :: l))
    (act : ∀ w l u o γ r w', Ledger C t l → Inv w l → Allowed C t (phase C t l u) o →
      respond w o γ = some (r, w') → G w l u o r → Inv w' (.act u o r :: l))
    (halt : ∀ w l u, Ledger C t l → Inv w l → Inv w (.halt u :: l))
    (h : Run G ((gateway C t).initial w) c) : Inv c.world c.log :=
  gateway_invariant_from (H := G) Inv .refl start spawn act halt h

/-! ### The template of the task -/

/-- The row, and every row a handler loaded, are of the template `ref` names. -/
structure Templated (C : Container) (t : ResolvedTemplate) (ref : String × ℕ) (w : World)
    (l : Log) : Prop where
  row : w.row.templateRef = ref
  seen : ∀ u, ∀ row ∈ (phase C t l u).seen, row.templateRef = ref

section Templated

variable {ref : String × ℕ} {w w' : World} {log : Log} {v : ℕ}

theorem templated_start : Templated C t w.row.templateRef w [] :=
  ⟨rfl, fun u row hm => by cases hm⟩

theorem Templated.spawn (h : Templated C t ref w log) (v : ℕ) (κ : Work) :
    Templated C t ref w (.spawn v κ :: log) :=
  ⟨h.row, everyone_spawn (p := fun _ l' => ∀ row ∈ l'.seen, row.templateRef = _) (by simp) h.seen⟩

theorem Templated.halt (h : Templated C t ref w log) (v : ℕ) :
    Templated C t ref w (.halt v :: log) :=
  ⟨h.row, everyone_halt (p := fun _ l' => ∀ row ∈ l'.seen, row.templateRef = _) (h.seen v) h.seen⟩

theorem Templated.act {γ : Choice} (h : Templated C t ref w log)
    (ha : Allowed C t (phase C t log v) o) (hw : respond w o γ = some (r, w')) :
    Templated C t ref w' (.act v o r :: log) := by
  refine ⟨?_, everyone_act (p := fun _ l' => ∀ row ∈ l'.seen, row.templateRef = _) ?_ h.seen⟩
  · obtain ⟨-, hrow⟩ | ⟨op, -, -, -, href⟩ := move_cases (u := v) ha hw
    · rw [hrow]
      exact h.row
    · exact (congrArg Identity.templateRef href).trans h.row
  · intro row hm
    obtain hm | rfl := seen_next hw hm
    · exact h.seen v row hm
    · exact h.row

/-- **In every run the task keeps its template.** -/
theorem templated_run {G : (gateway C t).Condition} {c : Config (gateway C t)}
    (h : Run G ((gateway C t).initial w) c) : Templated C t w.row.templateRef c.world c.log :=
  gateway_invariant (Templated C t w.row.templateRef) templated_start
    (fun _ _ u κ _ _ ht => ht.spawn u κ) (fun _ _ _ _ _ _ _ _ ht ha hw _ => ht.act ha hw)
    (fun _ _ u _ ht => ht.halt u) h

end Templated

end AsyncGateway
