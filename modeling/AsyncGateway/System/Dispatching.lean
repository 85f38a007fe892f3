import AsyncGateway.Lib.Pool
import AsyncGateway.Workers.Dispatch

/-!
# System — many schedulers

Any number of ticks of any number of schedulers, and any other writers, over the one table,
interleaved at every statement; no message is refused.  A tick keeps to its selection: it leases a
selected row under the status it was selected with, and owes the bus a message for each lease it got
(`Stage`).  So the messages are the leases (`dispatch_discipline`), and a lease keeps the others off
for as long as it is taken (`Spaced`).
-/

namespace AsyncGateway.Scheduler

open Interleave
open AsyncGateway (dueForDispatch)

/-- A tick of a scheduler, or one write of another process. -/
inductive Work : Type where
  | tick (batch : ℕ) (leaseSeconds : Seconds)
  | write (now : Time) (taskId : String) (op : DaoOp)

def Work.body (C : Container) : Work → Prog calls Exn Unit
  | .tick batch leaseSeconds => do
      let _ ← dispatchDue C leaseSeconds batch
      pure ()
  | .write now taskId op => do
      let _ ← call (.apply now taskId op)
      pure ()

/-- The answer of the table and the bus; the clock of each process is its own. -/
def respond (tbl : Table) : (o : Call) → Time → Option (Except Exn o.Ans × Table)
  | .now, γ => some (.ok γ, tbl)
  | .dueForDispatch limit now, _ => some (.ok (tbl.dueForDispatch limit now), tbl)
  | .apply now taskId op, _ =>
      let r := tbl.exec now taskId op
      some (r.1.mapError .transitionError, r.2)
  | .enqueue _, _ => some (.ok (), tbl)

/-- **The schedulers and the other writers.** -/
abbrev machine (C : Container) : Machine calls Exn where
  Kind := Work
  body := Work.body C
  World := Table
  Choice := Time
  respond := respond

abbrev Log := List (Event calls Exn Work)

/-! ### The stages of a tick -/

/-- How far a tick is: before its selection, with rows it has not come to, with a message it owes,
or at its end; or the one write of another process. -/
inductive Stage : Type where
  | opening (leaseSeconds : Seconds)
  | pending (leaseSeconds : Seconds) (due : List AsyncTask)
  | owing (leaseSeconds : Seconds) (message : Envelope) (due : List AsyncTask)
  | ended
  | writing (now : Time) (taskId : String) (op : DaoOp)
  | elsewhere

namespace Stage

def Allows : Stage → Call → Prop
  | .opening _, .now => True
  | .opening _, .dueForDispatch _ _ => True
  | .pending _ _, .now => True
  | .pending leaseSeconds (row :: _), .apply _ taskId op =>
      taskId = row.taskId ∧ op = .leaseDispatch leaseSeconds [row.status]
  | .owing _ message _, .enqueue message' => message' = message
  | .writing now taskId op, .apply now' taskId' op' => now' = now ∧ taskId' = taskId ∧ op' = op
  | _, _ => False

/-- A selected row without a target is passed over. -/
def next (C : Container) : Stage → (o : Call) → Except Exn o.Ans → Stage
  | .opening l, .now, .ok _ => .opening l
  | .opening l, .dueForDispatch _ _, .ok rows =>
      .pending l (rows.filter fun row => (targetQueueAndName C row).isSome)
  | .pending l due, .now, .ok _ => .pending l due
  | .pending l (row :: due), .apply _ _ _, .ok true => .owing l (messageOf C row) due
  | .pending l (_ :: due), .apply _ _ _, .ok false => .pending l due
  | .owing l _ due, .enqueue _, .ok _ => .pending l due
  | .writing _ _ _, _, _ => .elsewhere
  | .elsewhere, _, _ => .elsewhere
  | _, _, _ => .ended

/-- A tick that is stopped is over. -/
def gone : Stage → Stage
  | .writing _ _ _ => .elsewhere
  | .elsewhere => .elsewhere
  | _ => .ended

def Done : Stage → Prop
  | .owing _ _ _ => False
  | _ => True

end Stage

/-- **What a tick keeps to.** -/
def keeping (C : Container) : Protocol calls Exn Work where
  State := Stage
  start
    | .tick _ leaseSeconds => .opening leaseSeconds
    | .write now taskId op => .writing now taskId op
  idle := .elsewhere
  gone := Stage.gone
  allows := Stage.Allows
  next := Stage.next C
  done := Stage.Done
  done_idle := trivial
  done_gone m := by cases m <;> trivial

/-- Where a handler is after the log. -/
abbrev stage (C : Container) (log : Log) (u : ℕ) : Stage :=
  (keeping C).after (M := machine C) log u

variable {C : Container}

theorem follows_dispatchAll {l : Seconds} {due : List AsyncTask} {n : ℕ} :
    Leads (keeping C) (dispatchAll C l due n)
      (.pending l (due.filter fun row => (targetQueueAndName C row).isSome))
      fun _ m => ∃ l due, m = .pending l due := by
  induction due generalizing n with
  | nil => exact ⟨_, _, rfl⟩
  | cons row due ih =>
      cases htarget : targetQueueAndName C row with
      | none =>
          simp only [dispatchAll, htarget]
          rw [List.filter_cons_of_neg (by simp [htarget])]
          exact ih
      | some target =>
          obtain ⟨queue, name⟩ := target
          simp only [dispatchAll, htarget]
          rw [List.filter_cons_of_pos (by simp [htarget])]
          refine .bind (.perform trivial fun now => .bind (.perform ⟨rfl, rfl⟩ fun leased => ?_))
          cases leased with
          | true =>
              refine .bind (.perform ?_ fun _ => ih)
              change (⟨queue, name, row.taskId⟩ : Envelope) = messageOf C row
              simp [messageOf, htarget]
          | false => exact ih

theorem follows_body (κ : Work) : Follows (keeping C) (κ.body C) ((keeping C).start κ) := by
  cases κ with
  | tick batch l =>
      refine .bind (.bind (.perform trivial fun now => .bind (.perform trivial fun rows => ?_)))
      refine follows_dispatchAll.mono ?_
      rintro n m ⟨l, due, rfl⟩
      exact trivial
  | write now taskId op => exact .bind (.perform ⟨rfl, rfl, rfl⟩ fun _ => trivial)

/-! ### What the stages count -/

/-- Tick `u` got a lease of the task. -/
def isLease (u : ℕ) (taskId : String) : Event calls Exn Work → Bool
  | .act v (.apply _ taskId' (.leaseDispatch _ _)) (.ok true) =>
      decide (v = u) && decide (taskId' = taskId)
  | _ => false

/-- Tick `u` put a message for the task on the bus. -/
def isMessage (u : ℕ) (taskId : String) : Event calls Exn Work → Bool
  | .act v (.enqueue message) (.ok _) => decide (v = u) && decide (message.taskId = taskId)
  | _ => false

def leases (log : Log) (u : ℕ) (taskId : String) : ℕ := log.countP (isLease u taskId)

def messages (log : Log) (u : ℕ) (taskId : String) : ℕ := log.countP (isMessage u taskId)

/-- The rows are of the tick's own selection. -/
def SelectedBy (log : Log) (u : ℕ) (due : List AsyncTask) : Prop :=
  ∃ limit now rows, .act u (.dueForDispatch limit now) (.ok rows) ∈ log ∧ due ⊆ rows

/-- What a tick at a stage has leased and put on the bus. -/
def Accounts (log : Log) (u : ℕ) : Stage → Prop
  | .opening _ => ∀ taskId, messages log u taskId = 0 ∧ leases log u taskId = 0
  | .pending _ due => (due.map (·.taskId)).Nodup ∧ SelectedBy log u due ∧
      ∀ taskId, messages log u taskId = leases log u taskId ∧ leases log u taskId ≤ 1 ∧
        (taskId ∈ due.map (·.taskId) → leases log u taskId = 0)
  | .owing _ message due => (due.map (·.taskId)).Nodup ∧ SelectedBy log u due ∧
      ∀ taskId, messages log u taskId + (if message.taskId = taskId then 1 else 0) =
        leases log u taskId ∧ leases log u taskId ≤ 1 ∧
        (taskId ∈ due.map (·.taskId) → leases log u taskId = 0)
  | .ended => ∀ taskId, messages log u taskId ≤ leases log u taskId ∧ leases log u taskId ≤ 1
  | .writing _ _ _ => ∀ taskId, messages log u taskId = 0
  | .elsewhere => ∀ taskId, messages log u taskId = 0

variable {log : Log} {u : ℕ} {taskId : String} {e : Event calls Exn Work}

theorem isLease_of_ne (h : u ≠ e.thread) : isLease u taskId e = false := by
  unfold isLease
  split
  · rename_i v _ _ _ _
    have hne : v ≠ u := Ne.symm h
    simp [hne]
  · rfl

theorem isMessage_of_ne (h : u ≠ e.thread) : isMessage u taskId e = false := by
  unfold isMessage
  split
  · rename_i v _ _
    have hne : v ≠ u := Ne.symm h
    simp [hne]
  · rfl

theorem leases_cons :
    leases (e :: log) u taskId = leases log u taskId + if isLease u taskId e then 1 else 0 :=
  List.countP_cons

theorem messages_cons :
    messages (e :: log) u taskId = messages log u taskId + if isMessage u taskId e then 1 else 0 :=
  List.countP_cons

/-- An event that is neither changes no account. -/
theorem Accounts.cons {m : Stage} (h : Accounts log u m)
    (hl : ∀ taskId, isLease u taskId e = false) (hm : ∀ taskId, isMessage u taskId e = false) :
    Accounts (e :: log) u m := by
  have hsel : ∀ due, SelectedBy log u due → SelectedBy (e :: log) u due := by
    rintro due ⟨limit, now, rows, hmem, hsub⟩
    exact ⟨limit, now, rows, List.mem_cons_of_mem _ hmem, hsub⟩
  cases m <;>
    simp only [Accounts, leases_cons, messages_cons, hl, hm, Bool.false_eq_true, if_false,
      Nat.add_zero] at h ⊢
  case pending => exact ⟨h.1, hsel _ h.2.1, h.2.2⟩
  case owing => exact ⟨h.1, hsel _ h.2.1, h.2.2⟩
  all_goals exact h

theorem SelectedBy.tail {row : AsyncTask} {due : List AsyncTask}
    (h : SelectedBy log u (row :: due)) : SelectedBy (e :: log) u due := by
  obtain ⟨limit, now, rows, hmem, hsub⟩ := h
  exact ⟨limit, now, rows, List.mem_cons_of_mem _ hmem, fun r hr =>
    hsub (List.mem_cons_of_mem _ hr)⟩

/-- The selection: each task once. -/
theorem Accounts.select {tbl : Table} {limit : ℕ} {now : Time} {l : Seconds}
    (h : Accounts log u (.opening l)) :
    Accounts (.act u (.dueForDispatch limit now) (.ok (tbl.dueForDispatch limit now)) :: log) u
      (.pending l ((tbl.dueForDispatch limit now).filter
        fun row => (targetQueueAndName C row).isSome)) := by
  refine ⟨nodup_dueForDispatch.sublist (List.filter_sublist.map _),
    ⟨limit, now, _, List.mem_cons_self, List.filter_subset_self _⟩, fun taskId => ?_⟩
  obtain ⟨hm, hl⟩ := h taskId
  simp [leases_cons, messages_cons, isLease, isMessage, hm, hl]

/-- The lease of the next task: where it hits, a message for it is owed. -/
theorem Accounts.lease {l : Seconds} {row : AsyncTask} {due : List AsyncTask} {now : Time}
    {r : Except Exn Bool} (h : Accounts log u (.pending l (row :: due))) :
    Accounts (.act u (.apply now row.taskId (.leaseDispatch l [row.status])) r :: log) u
      (Stage.next C (.pending l (row :: due))
        (.apply now row.taskId (.leaseDispatch l [row.status])) r) := by
  obtain ⟨hnodup, hsel, hcount⟩ := h
  obtain ⟨hnew, hnodup'⟩ := List.nodup_cons.mp hnodup
  cases r with
  | error x =>
      intro taskId
      obtain ⟨hm, hl, -⟩ := hcount taskId
      simp [leases_cons, messages_cons, isLease, isMessage, hm, hl]
  | ok leased =>
      cases leased with
      | true =>
          refine ⟨hnodup', hsel.tail, fun taskId => ?_⟩
          obtain ⟨hm, hl, hfresh⟩ := hcount taskId
          by_cases hid : row.taskId = taskId
          · -- its first lease
            have hnone := hfresh (List.mem_cons.mpr (.inl hid.symm))
            have hout : taskId ∉ due.map (·.taskId) := by
              rw [← hid]
              exact hnew
            simp [leases_cons, messages_cons, isLease, isMessage, messageOf, hid, hm, hnone, hout]
          · have hfresh' := fun hin => hfresh (List.mem_cons_of_mem _ hin)
            simpa [leases_cons, messages_cons, isLease, isMessage, messageOf, hid, hm, hl]
              using hfresh'
      | false =>
          refine ⟨hnodup', hsel.tail, fun taskId => ?_⟩
          obtain ⟨hm, hl, hfresh⟩ := hcount taskId
          refine ⟨?_, ?_, fun hin => ?_⟩
          · simpa [leases_cons, messages_cons, isLease, isMessage] using hm
          · simpa [leases_cons, isLease] using hl
          · simpa [leases_cons, isLease] using hfresh (List.mem_cons_of_mem _ hin)

/-- The message that is owed is put on the bus. -/
theorem Accounts.sent {l : Seconds} {message : Envelope} {due : List AsyncTask}
    (h : Accounts log u (.owing l message due)) :
    Accounts (.act u (.enqueue message) (.ok ()) :: log) u (.pending l due) := by
  obtain ⟨hnodup, ⟨limit, now, rows, hmem, hsub⟩, hcount⟩ := h
  refine ⟨hnodup, ⟨limit, now, rows, List.mem_cons_of_mem _ hmem, hsub⟩, fun taskId => ?_⟩
  obtain ⟨hm, hl, hfresh⟩ := hcount taskId
  simp only [leases_cons, messages_cons, isLease, isMessage, decide_true, Bool.true_and,
    decide_eq_true_eq, Bool.false_eq_true, if_false, Nat.add_zero]
  exact ⟨hm, hl, hfresh⟩

/-- What an operation of the tick does to its accounts. -/
theorem Accounts.act {tbl tbl' : Table} {m : Stage} {o : Call} {γ : Time}
    {r : Except Exn o.Ans} (h : Accounts log u m) (ha : m.Allows o)
    (hr : respond tbl o γ = some (r, tbl')) :
    Accounts (.act u o r :: log) u (m.next C o r) := by
  cases m with
  | opening l =>
      cases o with
      | now =>
          cases hr
          exact h.cons (fun _ => rfl) fun _ => rfl
      | dueForDispatch limit now =>
          cases hr
          exact h.select
      | apply now taskId op => exact ha.elim
      | enqueue message => exact ha.elim
  | pending l due =>
      cases o with
      | now =>
          cases hr
          exact h.cons (fun _ => rfl) fun _ => rfl
      | apply now taskId op =>
          cases due with
          | nil => exact ha.elim
          | cons row due =>
              obtain ⟨rfl, rfl⟩ := ha
              exact h.lease
      | dueForDispatch limit now => cases due <;> exact ha.elim
      | enqueue message => cases due <;> exact ha.elim
  | owing l message due =>
      cases o with
      | enqueue message' =>
          obtain rfl : message' = message := ha
          cases hr
          exact h.sent
      | _ => exact ha.elim
  | writing now taskId op =>
      cases o with
      | apply now' taskId' op' => exact fun id => by simpa [messages_cons, isMessage] using h id
      | _ => exact ha.elim
  | ended => cases o <;> exact ha.elim
  | elsewhere => cases o <;> exact ha.elim

theorem Accounts.gone {m : Stage} (h : Accounts log u m) : Accounts log u m.gone := by
  cases m with
  | opening l => exact fun id => by simp [h id]
  | pending l due =>
      intro id
      obtain ⟨hm, hl, -⟩ := h.2.2 id
      exact ⟨hm.le, hl⟩
  | owing l message due =>
      intro id
      obtain ⟨hm, hl, -⟩ := h.2.2 id
      exact ⟨by omega, hl⟩
  | ended => exact h
  | writing now taskId op => exact h
  | elsewhere => exact h

/-- A message that is on the bus is for one lease. -/
theorem Accounts.paired {m : Stage} (h : Accounts log u m) (hpos : 0 < messages log u taskId) :
    messages log u taskId = 1 ∧ leases log u taskId = 1 := by
  cases m with
  | opening l =>
      have := h taskId
      omega
  | pending l due =>
      have := h.2.2 taskId
      omega
  | owing l message due =>
      have := h.2.2 taskId
      omega
  | ended =>
      have := h taskId
      omega
  | writing now id op =>
      have := h taskId
      omega
  | elsewhere =>
      have := h taskId
      omega

/-- Nothing is counted for a name that is not used yet. -/
theorem counts_of_fresh (h : ∀ e ∈ log, e.thread ≠ u) :
    messages log u taskId = 0 ∧ leases log u taskId = 0 :=
  ⟨List.countP_eq_zero.mpr fun e he => by simp [isMessage_of_ne (h e he).symm],
    List.countP_eq_zero.mpr fun e he => by simp [isLease_of_ne (h e he).symm]⟩

/-- The stages of a tick. -/
def Stage.OfTick : Stage → Prop
  | .writing _ _ _ => False
  | .elsewhere => False
  | _ => True

theorem Stage.OfTick.next {m : Stage} (h : m.OfTick) {o : Call} {r : Except Exn o.Ans} :
    (m.next C o r).OfTick := by
  unfold Stage.next
  split <;> trivial

theorem Stage.OfTick.gone {m : Stage} (h : m.OfTick) : m.gone.OfTick := by
  cases m <;> trivial

/-- What holds of the log of every run. -/
structure Booked (C : Container) (log : Log) : Prop where
  accounts : ∀ u, Accounts log u (stage C log u)
  ofTick : ∀ u batch l, .spawn u (.tick batch l) ∈ log → (stage C log u).OfTick

theorem stage_self {e : Event calls Exn Work} : stage C (e :: log) e.thread =
    match e with
    | .spawn _ κ => (keeping C).start κ
    | .act _ o r => (stage C log e.thread).next C o r
    | .halt _ => (stage C log e.thread).gone := by
  cases e <;> exact if_pos rfl

theorem stage_of_ne (h : u ≠ e.thread) : stage C (e :: log) u = stage C log u :=
  Protocol.after_of_ne (P := keeping C) (M := machine C) h

/-- An event leaves the accounts of the other ticks. -/
theorem Booked.others (h : Booked C log) (hne : u ≠ e.thread) :
    Accounts (e :: log) u (stage C (e :: log) u) := by
  rw [stage_of_ne hne]
  exact (h.accounts u).cons (fun _ => isLease_of_ne hne) fun _ => isMessage_of_ne hne

/-- What an event does is done to the tick it is of. -/
theorem Booked.event (h : Booked C log)
    (accounts : Accounts (e :: log) e.thread (stage C (e :: log) e.thread))
    (ofTick : ∀ batch l, .spawn e.thread (.tick batch l) ∈ e :: log →
      (stage C (e :: log) e.thread).OfTick) : Booked C (e :: log) := by
  refine ⟨fun u => ?_, fun u batch l hm => ?_⟩
  · by_cases hu : u = e.thread
    · exact hu ▸ accounts
    · exact h.others hu
  · by_cases hu : u = e.thread
    · subst hu
      exact ofTick batch l hm
    · rw [stage_of_ne hu]
      refine h.ofTick u batch l ((List.mem_cons.mp hm).resolve_left fun he => hu ?_)
      rw [← he]
      rfl

theorem booked_run {tbl : Table} {c : Config (machine C)}
    (hrun : Run (machine C).anything ((machine C).initial tbl) c) : Booked C c.log := by
  have hstart : Booked C [] :=
    ⟨fun _ _ => rfl, fun _ _ _ h => absurd h List.not_mem_nil⟩
  refine Run.invariant (M := machine C) (P := keeping C) (fun _ log => Booked C log) follows_body
    (Keeps.initial tbl) hstart ?_ ?_ ?_ hrun
  · intro w log t κ hfresh h
    have hself : stage C (.spawn t κ :: log) t = (keeping C).start κ :=
      stage_self (e := .spawn t κ)
    have hcount : ∀ id, messages (.spawn t κ :: log) t id = 0 ∧
        leases (.spawn t κ :: log) t id = 0 := by
      intro id
      rw [messages_cons, leases_cons]
      exact counts_of_fresh hfresh
    refine h.event (hself ▸ ?_) fun batch l hm => hself ▸ ?_
    · cases κ with
      | tick batch l => exact hcount
      | write now taskId op => exact fun id => (hcount id).1
    · -- the name was not used before
      have he : (.spawn t (.tick batch l) : Event calls Exn Work) = .spawn t κ :=
        (List.mem_cons.mp hm).resolve_right fun hin => hfresh _ hin rfl
      cases he
      trivial
  · intro w log t o γ r w' h ha hw _
    have hself : stage C (.act t o r :: log) t = (stage C log t).next C o r :=
      stage_self (e := .act t o r)
    refine h.event (hself ▸ (h.accounts t).act ha hw) fun batch l hm => hself ▸ ?_
    exact (h.ofTick t batch l ((List.mem_cons.mp hm).resolve_left nofun)).next
  · intro w log t h
    have hself : stage C (.halt t :: log) t = (stage C log t).gone := stage_self (e := .halt t)
    refine h.event (hself ▸ ((h.accounts t).cons (fun _ => rfl) fun _ => rfl).gone)
      fun batch l hm => hself ▸ ?_
    exact (h.ofTick t batch l ((List.mem_cons.mp hm).resolve_left nofun)).gone

/-! ### The time between two leases -/

/-- The operation leaves `next_poll_at` where it is. -/
def KeepsNextPoll (op : DaoOp) : Prop :=
  ∀ now row, (op.exec now row).2.nextPollAt = row.nextPollAt

/-- The event is no write to `next_poll_at` of the task but a lease. -/
def LeavesNextPoll (taskId : String) : Event calls Exn Work → Prop
  | .act _ (.apply _ taskId' op) (.ok true) =>
      taskId' = taskId → (∃ l expected, op = .leaseDispatch l expected) ∨ KeepsNextPoll op
  | _ => True

variable {tbl tbl' : Table} {now : Time} {op : DaoOp} {l : Seconds} {expected : List TaskStatus}

/-- A write that does not hit changes nothing. -/
theorem get_exec_of_miss (h : (tbl.exec now taskId op).1 ≠ .ok true) (taskId' : String) :
    (tbl.exec now taskId op).2.get taskId' = tbl.get taskId' := by
  by_cases hid : taskId' = taskId
  · subst hid
    cases hget : tbl.get taskId' with
    | none => simp [Table.get_exec, hget]
    | some row =>
        have hrow := (Table.get_eq_some.mp hget).2
        have hop : (op.exec now row).1 ≠ .ok true := by simpa [Table.exec, hget] using h
        have hsame : (op.exec now row).2 = row := by
          unfold DaoOp.exec at hop ⊢
          split
          · exact absurd (by simp [*]) hop
          · rfl
          · rfl
        simp [Table.get_exec, hget, Table.written, hrow, hsame]
  · exact Table.get_exec_of_ne hid

/-- What a lease that hits found, and what it leaves. -/
theorem exec_lease_hit
    (h : (tbl.exec now taskId (.leaseDispatch l expected)).1 = .ok true) :
    ∃ row s, tbl.get taskId = some row ∧ row.status ∈ expected ∧ row.nextPollAt = some s ∧
      s ≤ now ∧ (tbl.exec now taskId (.leaseDispatch l expected)).2.get taskId =
        some (leased l now row) := by
  cases hget : tbl.get taskId with
  | none => simp [Table.exec, hget, DaoOp.assertWhitelisted, Except.map] at h
  | some row =>
      obtain rfl := (Table.get_eq_some.mp hget).2
      obtain ⟨h₁, h₂⟩ :
          (tbl.exec now row.taskId (.leaseDispatch l expected)).1 = _ ∧
            (tbl.exec now row.taskId (.leaseDispatch l expected)).2.get row.taskId = _ :=
        Table.get_exec_self hget
      rw [h₁] at h
      simp only [DaoOp.exec, DaoOp.run, cas] at h h₂
      split at h <;> rename_i hrun
      · split at hrun
        · cases hrun
        · split at hrun
          · rename_i hcond
            obtain ⟨t, ht, hle⟩ := (Option.any_eq_true _ _).mp hcond.2
            refine ⟨row, t, rfl, hcond.1, ht, of_decide_eq_true hle, ?_⟩
            rw [h₂]
            simp [*]
            rfl
          · cases hrun
      · cases h
      · cases h

/-- A lease changes no row but that of its task, and only where the status is one it expects and
the task is due. -/
theorem exec_lease_confined {taskId' : String}
    (hne : (tbl.exec now taskId (.leaseDispatch l expected)).2.get taskId' ≠ tbl.get taskId') :
    taskId' = taskId ∧ ∃ found s, tbl.get taskId = some found ∧ found.status ∈ expected ∧
      found.nextPollAt = some s ∧ s ≤ now := by
  by_cases hhit : (tbl.exec now taskId (.leaseDispatch l expected)).1 = .ok true
  · by_cases hid : taskId' = taskId
    · obtain ⟨found, s, hget, hs, hnext, hle, -⟩ := exec_lease_hit hhit
      exact ⟨hid, found, s, hget, hs, hnext, hle⟩
    · exact absurd (Table.get_exec_of_ne hid) hne
  · exact absurd (get_exec_of_miss hhit taskId') hne

/-- A lease of the task that hit. -/
abbrev leaseEvent (u : ℕ) (now : Time) (taskId : String) (l : Seconds)
    (expected : List TaskStatus) : Event calls Exn Work :=
  .act u (.apply now taskId (.leaseDispatch l expected)) (.ok true)

/-- The task is not due before the time. -/
def LeasedUntil (tbl : Table) (taskId : String) (time : Time) : Prop :=
  ∃ row s, tbl.get taskId = some row ∧ row.nextPollAt = some s ∧ time ≤ s

theorem respond_apply {γ : Time}
    (hr : respond tbl (.apply now taskId op) γ = some (.ok true, tbl')) :
    (tbl.exec now taskId op).1 = .ok true ∧ tbl' = (tbl.exec now taskId op).2 := by
  obtain ⟨hr₁, hr₂⟩ := Prod.mk.inj (Option.some.inj hr)
  refine ⟨?_, hr₂.symm⟩
  cases hx : (tbl.exec now taskId op).1 with
  | ok b =>
      rw [hx] at hr₁
      cases hr₁
      rfl
  | error x =>
      rw [hx] at hr₁
      cases hr₁

/-- A lease lasts until another process moves `next_poll_at`. -/
theorem LeasedUntil.act {time : Time} {o : Call} {γ : Time} {r : Except Exn o.Ans}
    (h : LeasedUntil tbl taskId time) (hr : respond tbl o γ = some (r, tbl'))
    (hleave : LeavesNextPoll taskId (.act u o r)) : LeasedUntil tbl' taskId time := by
  obtain ⟨row, s, hget, hnext, hle⟩ := h
  cases o with
  | now => cases hr; exact ⟨row, s, hget, hnext, hle⟩
  | dueForDispatch limit now => cases hr; exact ⟨row, s, hget, hnext, hle⟩
  | enqueue message => cases hr; exact ⟨row, s, hget, hnext, hle⟩
  | apply now taskId' op =>
      obtain ⟨hr₁, rfl⟩ := Prod.mk.inj (Option.some.inj hr)
      by_cases hhit : (tbl.exec now taskId' op).1 = .ok true
      · rw [hhit] at hr₁
        obtain rfl : (.ok true : Except Exn Bool) = r := hr₁
        by_cases hid : taskId' = taskId
        · subst hid
          rcases hleave rfl with ⟨l, expected, rfl⟩ | hkeep
          · -- the other lease begins after this one
            obtain ⟨row', s', hget', -, hs', hlt, hafter⟩ := exec_lease_hit hhit
            obtain rfl : row' = row := Option.some.inj (hget'.symm.trans hget)
            obtain rfl : s' = s := Option.some.inj (hs'.symm.trans hnext)
            refine ⟨_, _, hafter, rfl, ?_⟩
            have : (0 : ℚ) < max 1 l := lt_max_of_lt_left one_pos
            linarith
          · have hrow := (Table.get_eq_some.mp hget).2
            refine ⟨(op.exec now row).2, s, ?_, (hkeep now row).trans hnext, hle⟩
            rw [Table.get_exec, hget]
            simp [Table.written, hrow]
        · exact ⟨row, s, (Table.get_exec_of_ne (Ne.symm hid)).trans hget, hnext, hle⟩
      · exact ⟨row, s, (get_exec_of_miss hhit taskId).trans hget, hnext, hle⟩

/-- Two leases of a task, with no other writer of its `next_poll_at` between them: the later one is
taken after the earlier one is over. -/
def Spaced (log : Log) : Prop :=
  ∀ log₂ log₁ log₀ u₁ u₂ t₁ t₂ taskId l₁ l₂ expected₁ expected₂,
    log = log₂ ++ leaseEvent u₂ t₂ taskId l₂ expected₂ ::
      (log₁ ++ leaseEvent u₁ t₁ taskId l₁ expected₁ :: log₀) →
    (∀ e ∈ log₁, LeavesNextPoll taskId e) → t₁ + max 1 l₁ ≤ t₂

structure Timed (tbl : Table) (log : Log) : Prop where
  spaced : Spaced log
  held : ∀ log₁ log₀ u t taskId l expected, log = log₁ ++ leaseEvent u t taskId l expected :: log₀ →
    (∀ e ∈ log₁, LeavesNextPoll taskId e) → LeasedUntil tbl taskId (t + max 1 l)

/-- An event that is no operation adds nothing. -/
theorem Timed.cons (h : Timed tbl log)
    (he : ∀ u t taskId l expected, e ≠ leaseEvent u t taskId l expected) :
    Timed tbl (e :: log) := by
  refine ⟨?_, ?_⟩
  · intro log₂ log₁ log₀ u₁ u₂ t₁ t₂ taskId l₁ l₂ ex₁ ex₂ hlog hquiet
    rcases List.cons_eq_append_iff.mp hlog with ⟨-, hcons⟩ | ⟨log₂', -, hlog'⟩
    · exact absurd (List.cons.inj hcons).1.symm (he _ _ _ _ _)
    · exact h.spaced _ _ _ _ _ _ _ _ _ _ _ _ hlog' hquiet
  · intro log₁ log₀ u t taskId l ex hlog hquiet
    rcases List.cons_eq_append_iff.mp hlog with ⟨-, hcons⟩ | ⟨log₁', rfl, hlog'⟩
    · exact absurd (List.cons.inj hcons).1.symm (he _ _ _ _ _)
    · exact h.held _ _ _ _ _ _ _ hlog' fun e' he' => hquiet e' (List.mem_cons_of_mem _ he')

theorem Timed.act {o : Call} {γ : Time} {r : Except Exn o.Ans} (h : Timed tbl log)
    (hr : respond tbl o γ = some (r, tbl')) : Timed tbl' (.act u o r :: log) := by
  refine ⟨?_, ?_⟩
  · intro log₂ log₁ log₀ u₁ u₂ t₁ t₂ taskId l₁ l₂ ex₁ ex₂ hlog hquiet
    rcases List.cons_eq_append_iff.mp hlog with ⟨-, hcons⟩ | ⟨log₂', -, hlog'⟩
    · -- the later lease is the operation itself
      obtain ⟨hev, rfl⟩ := List.cons.inj hcons
      cases hev
      obtain ⟨row, s, hget, hnext, hle⟩ := h.held _ _ _ _ _ _ _ rfl hquiet
      obtain ⟨row', s', hget', -, hs', hlt, -⟩ := exec_lease_hit (respond_apply hr).1
      obtain rfl : row' = row := Option.some.inj (hget'.symm.trans hget)
      obtain rfl : s' = s := Option.some.inj (hs'.symm.trans hnext)
      exact hle.trans hlt
    · exact h.spaced _ _ _ _ _ _ _ _ _ _ _ _ hlog' hquiet
  · intro log₁ log₀ v t taskId l ex hlog hquiet
    rcases List.cons_eq_append_iff.mp hlog with ⟨-, hcons⟩ | ⟨log₁', rfl, hlog'⟩
    · obtain ⟨hev, rfl⟩ := List.cons.inj hcons
      cases hev
      obtain ⟨hhit, rfl⟩ := respond_apply hr
      obtain ⟨row, s, -, -, -, -, hafter⟩ := exec_lease_hit hhit
      exact ⟨_, _, hafter, rfl, le_rfl⟩
    · exact (h.held _ _ _ _ _ _ _ hlog' fun e he =>
        hquiet e (List.mem_cons_of_mem _ he)).act hr (hquiet _ List.mem_cons_self)

theorem timed_run {tbl : Table} {c : Config (machine C)}
    (hrun : Run (machine C).anything ((machine C).initial tbl) c) : Timed c.world c.log := by
  have hstart : Timed tbl [] := by
    refine ⟨?_, ?_⟩
    · intro log₂ log₁ log₀ u₁ u₂ t₁ t₂ taskId l₁ l₂ ex₁ ex₂ hlog
      simp at hlog
    · intro log₁ log₀ u t taskId l ex hlog
      simp at hlog
  have hkeeps : Keeps (keeping C) ((machine C).initial tbl) := Keeps.initial (M := machine C) tbl
  refine Run.invariant Timed follows_body hkeeps hstart ?_ ?_ ?_ hrun
  · exact fun w log t κ _ h => h.cons nofun
  · exact fun w log t o γ r w' h _ hw _ => h.act hw
  · exact fun w log t h => h.cons nofun

/-! ### The discipline -/

/-- **What every run of the schedulers comes to.** -/
structure Disciplined (c : Config (machine C)) : Prop where
  /-- A message of a tick is for one lease, which it got. -/
  paired : ∀ u taskId, 0 < messages c.log u taskId →
    messages c.log u taskId = 1 ∧ leases c.log u taskId = 1
  spaced : Spaced c.log
  /-- A tick that is about to write is about to lease a row of its selection, under the status it
  was selected with; it changes no row that has another one, or that is due later. -/
  confined : ∀ u batch l now taskId op k, .spawn u (.tick batch l) ∈ c.log →
    c.prog u = .op (.apply now taskId op) k →
    ∃ row l', SelectedBy c.log u [row] ∧ op = .leaseDispatch l' [row.status] ∧
      ∀ taskId', (c.world.exec now taskId op).2.get taskId' ≠ c.world.get taskId' →
        taskId' = row.taskId ∧ ∃ found s, c.world.get taskId' = some found ∧
          found.status = row.status ∧ found.nextPollAt = some s ∧ s ≤ now

theorem disciplined_run {tbl : Table} {c : Config (machine C)}
    (hrun : Run (machine C).anything ((machine C).initial tbl) c) : Disciplined c := by
  have hbooked := booked_run hrun
  have hkeeps : Keeps (keeping C) c := Keeps.run follows_body (Keeps.initial tbl) hrun
  refine ⟨fun u taskId => (hbooked.accounts u).paired, (timed_run hrun).spaced, ?_⟩
  intro u batch l now taskId op k hspawn hprog
  have hallows : (stage C c.log u).Allows (.apply now taskId op) := hkeeps.allows hprog
  have htick := hbooked.ofTick u batch l hspawn
  have haccounts := hbooked.accounts u
  -- a tick writes only where it has rows to lease
  cases hm : stage C c.log u with
  | pending l' due =>
      rw [hm] at hallows haccounts
      cases due with
      | nil => exact hallows.elim
      | cons row due =>
          obtain ⟨rfl, rfl⟩ := hallows
          obtain ⟨-, ⟨limit, now', rows, hmem, hsub⟩, -⟩ := haccounts
          refine ⟨row, l', ⟨limit, now', rows, hmem, ?_⟩, rfl, fun taskId' hne => ?_⟩
          · exact List.cons_subset.mpr ⟨hsub List.mem_cons_self, List.nil_subset _⟩
          · obtain ⟨rfl, found, s, hget, hs, hnext, hle⟩ := exec_lease_confined hne
            exact ⟨rfl, found, s, hget, List.mem_singleton.mp hs, hnext, hle⟩
  | writing now id op =>
      rw [hm] at htick
      exact htick.elim
  | _ =>
      rw [hm] at hallows
      exact hallows.elim

/-- **The discipline of the dispatch.**  In every run of any number of schedulers each message is
for one lease, two leases of a task are as far apart as the first one lasts, and no lease changes a
row that is due later or has another status than the one selected; and the ticks of one scheduler
work off what is due, the earliest first, a batch at a time and nothing twice. -/
theorem dispatch_discipline {tbl : Table} {c : Config (machine C)}
    (hrun : Run (machine C).anything ((machine C).initial tbl) c) :
    Disciplined c ∧ ∀ leaseSeconds now batch k tbl, ∃ rows,
      (ticks C leaseSeconds now batch k ⟨tbl, [], 0⟩).bus = rows.map (messageOf C) ∧
        EarliestFirst now tbl (k * batch) rows :=
  ⟨disciplined_run hrun, fun leaseSeconds now batch k tbl =>
    ticks_earliest C leaseSeconds now batch k tbl⟩

/-- Two ticks that select the same two tasks: the first tick leases the first of them, and the
second one the other. -/
def interleaved : List (Move (machine bareContainer)) :=
  [.spawn (.tick 500 30), .spawn (.tick 500 30), .act 0 1, .act 0 0, .act 1 1, .act 1 0,
    .act 0 1, .act 0 0, .act 1 1, .act 1 0, .act 0 0, .act 1 1, .act 1 0, .act 1 0]

theorem dispatch_discipline_interleaved : ∃ c : Config (machine bareContainer),
    messages c.log 0 "a" = 1 ∧ messages c.log 1 "b" = 1 ∧ Disciplined c := by
  let p := fun c : Config (machine bareContainer) =>
    decide (messages c.log 0 "a" = 1 ∧ messages c.log 1 "b" = 1)
  have hexec : (((machine bareContainer).initial twoDoubtful).exec (fun _ _ _ _ _ => true)
      interleaved).any p = true := by decide +kernel
  obtain ⟨c, run, hp⟩ := Run.of_any_exec (fun _ _ _ _ _ _ => trivial) hexec
  obtain ⟨ha, hb⟩ := of_decide_eq_true hp
  exact ⟨c, ha, hb, (dispatch_discipline run).1⟩

end AsyncGateway.Scheduler
