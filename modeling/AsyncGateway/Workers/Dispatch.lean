import AsyncGateway.Db.Table
import AsyncGateway.Workers.Ticks
import Mathlib.Data.List.Sort
import Mathlib.Order.Monotone.Defs

/-!
# Workers — the tick of the scheduler over the table

`dispatch_due` as a whole: the due rows are selected, the earliest first and a batch at a time, and
each is leased and put on the bus.  All the leases of a tick are one transaction, which an exception
of the bus rolls back; the bus itself rolls nothing back (`dispatch_atomic_iff`).
-/

namespace AsyncGateway

open TaskStatus
open Interleave (Prog Sig)

/-- When a row is due; `order_by(next_poll_at)`. -/
def AsyncTask.dueAt (row : AsyncTask) : Time := row.nextPollAt.getD 0

/-- `due_for_dispatch`: the due rows, the earliest first, up to the limit. -/
def Table.dueForDispatch (tbl : Table) (limit : ℕ) (now : Time) : List AsyncTask :=
  ((tbl.rows.filter (AsyncGateway.dueForDispatch now)).insertionSort
    fun a b => a.dueAt ≤ b.dueAt).take limit

namespace Scheduler

/-- A message on the bus, for a task. -/
structure Envelope where
  queue : String
  name : String
  taskId : String
  deriving DecidableEq

/-- What a process asks of the clock, the database and the bus. -/
inductive Call : Type where
  | now
  | dueForDispatch (limit : ℕ) (now : Time)
  | apply (now : Time) (taskId : String) (op : DaoOp)
  | enqueue (message : Envelope)

abbrev Call.Ans : Call → Type
  | .now => Time
  | .dueForDispatch _ _ => List AsyncTask
  | .apply _ _ _ => Bool
  | .enqueue _ => Unit

abbrev calls : Sig := ⟨Call, Call.Ans⟩

def call (o : Call) : Prog calls Exn o.Ans := Prog.perform (S := calls) o

variable (C : Container) (leaseSeconds : Seconds)

/-- The loop of `dispatch_due` over the rows that are left. -/
def dispatchAll : List AsyncTask → ℕ → Prog calls Exn ℕ
  | [], dispatched => pure dispatched
  | task :: due, dispatched =>
      match targetQueueAndName C task with
      | none => dispatchAll due dispatched
      | some (queue, name) => do
          let now : Time ← call .now
          let leased : Bool ←
            call (.apply now task.taskId (.leaseDispatch leaseSeconds [task.status]))
          if leased then do
            let _ ← call (.enqueue ⟨queue, name, task.taskId⟩)
            dispatchAll due (dispatched + 1)
          else dispatchAll due dispatched

/-- `dispatch_due`. -/
def dispatchDue (batch : ℕ) : Prog calls Exn ℕ := do
  let now : Time ← call .now
  let due : List AsyncTask ← call (.dueForDispatch batch now)
  dispatchAll C leaseSeconds due 0

/-! ### One tick -/

/-- What one tick meets: a clock that does not go back, and the messages the bus refuses. -/
structure Surroundings where
  clock : ℕ → Time
  mono : Monotone clock
  refuses : Envelope → Option Exn

/-- The table as the transaction has it, the bus, and how often the clock was read. -/
structure Tick where
  table : Table
  bus : List Envelope := []
  readings : ℕ := 0

def serve (E : Surroundings) : (o : Call) → Tick → Except Exn o.Ans × Tick
  | .now, s => (.ok (E.clock s.readings), { s with readings := s.readings + 1 })
  | .dueForDispatch limit now, s => (.ok (s.table.dueForDispatch limit now), s)
  | .apply now taskId op, s =>
      let r := s.table.exec now taskId op
      (r.1.mapError .transitionError, { s with table := r.2 })
  | .enqueue message, s =>
      match E.refuses message with
      | some x => (.error x, s)
      | none => (.ok (), { s with bus := s.bus ++ [message] })

/-- One tick in `session_scope`: an exception rolls the table back, but not the bus. -/
def tick (E : Surroundings) (batch : ℕ) (s : Tick) : Except Exn ℕ × Tick :=
  match (dispatchDue C leaseSeconds batch).run (serve E) s with
  | (.ok n, s') => (.ok n, s')
  | (.error x, s') => (.error x, { s' with table := s.table })

/-- The message of a row that is due. -/
def messageOf (row : AsyncTask) : Envelope :=
  let target := (targetQueueAndName C row).getD ("", "")
  ⟨target.1, target.2, row.taskId⟩

/-! ### What is due -/

variable {C leaseSeconds} {tbl : Table} {now : Time} {limit : ℕ} {row : AsyncTask}

/-- A due row has a target. -/
theorem target_of_due (h : AsyncGateway.dueForDispatch now row = true) :
    ∃ target, targetQueueAndName C row = some target := by
  simp only [AsyncGateway.dueForDispatch, Bool.and_eq_true, Bool.or_eq_true, decide_eq_true_eq] at h
  rcases h.1 with hs | ⟨hs, hi⟩
  · obtain ⟨name, hn⟩ := Option.isSome_iff_exists.mp hs
    simp only [targetQueueAndName, hn]
    exact ⟨_, rfl⟩
  · simp only [targetQueueAndName, hs, Option.isNone_iff_eq_none.mp hi]
    exact ⟨_, rfl⟩

/-- A row is due at the time of its `next_poll_at`. -/
theorem dueAt_of_due (h : AsyncGateway.dueForDispatch now row = true) :
    row.nextPollAt = some row.dueAt ∧ row.dueAt ≤ now := by
  simp only [AsyncGateway.dueForDispatch, Bool.and_eq_true] at h
  obtain ⟨t, ht, hle⟩ := (Option.any_eq_true _ _).mp h.2
  simpa [AsyncTask.dueAt, ht] using of_decide_eq_true hle

theorem mem_dueForDispatch (h : row ∈ tbl.dueForDispatch limit now) :
    row ∈ tbl.rows ∧ AsyncGateway.dueForDispatch now row = true :=
  List.mem_filter.mp ((List.perm_insertionSort _ _).subset (List.mem_of_mem_take h))

theorem nodup_dueForDispatch : ((tbl.dueForDispatch limit now).map (·.taskId)).Nodup := by
  have hperm := (List.perm_insertionSort (fun a b : AsyncTask => a.dueAt ≤ b.dueAt)
    (tbl.rows.filter (AsyncGateway.dueForDispatch now))).map (·.taskId)
  have hall := hperm.nodup_iff.mpr (tbl.taskIds.sublist (List.filter_sublist.map _))
  exact hall.sublist ((List.take_sublist _ _).map _)

/-! ### One lease after the other -/

/-- A row under a lease taken at the time. -/
def leased (leaseSeconds : Seconds) (now : Time) (row : AsyncTask) : AsyncTask :=
  { row.touch now with nextPollAt := some (now + max 1 leaseSeconds) }

/-- The table with the lease of a row. -/
def withLease (leaseSeconds : Seconds) (now : Time) (row : AsyncTask) (tbl : Table) : Table :=
  (tbl.exec now row.taskId (.leaseDispatch leaseSeconds [row.status])).2

theorem exec_lease (leaseSeconds : Seconds) (hget : tbl.get row.taskId = some row)
    (hdue : AsyncGateway.dueForDispatch now row = true) :
    (tbl.exec now row.taskId (.leaseDispatch leaseSeconds [row.status])).1 = .ok true ∧
      (withLease leaseSeconds now row tbl).get row.taskId = some (leased leaseSeconds now row) := by
  obtain ⟨hat, hle⟩ := dueAt_of_due hdue
  have hrow : (DaoOp.leaseDispatch leaseSeconds [row.status]).exec now row =
      (.ok true, leased leaseSeconds now row) := by
    simp [DaoOp.exec, DaoOp.run, cas, cols, hat, hle, Write.apply, Assign.apply, leased]
  obtain ⟨hok, hafter⟩ : (tbl.exec now row.taskId (.leaseDispatch leaseSeconds [row.status])).1 = _ ∧
      (withLease leaseSeconds now row tbl).get row.taskId = _ := Table.get_exec_self hget
  rw [hrow] at hok hafter
  exact ⟨hok, hafter⟩

/-- A row due at a time is due at a later one. -/
theorem due_mono {now' : Time} (h : AsyncGateway.dueForDispatch now row = true) (hle : now ≤ now') :
    AsyncGateway.dueForDispatch now' row = true := by
  obtain ⟨hat, ht⟩ := dueAt_of_due h
  simp only [AsyncGateway.dueForDispatch, hat, Bool.and_eq_true, Option.any_some,
    decide_eq_true_eq] at h ⊢
  exact ⟨h.1, ht.trans hle⟩

/-- Different rows of the table that are due. -/
structure Pending (tbl : Table) (now : Time) (due : List AsyncTask) : Prop where
  nodup : (due.map (·.taskId)).Nodup
  rows : ∀ row ∈ due, tbl.get row.taskId = some row ∧ AsyncGateway.dueForDispatch now row = true

theorem Pending.selected : Pending tbl now (tbl.dueForDispatch limit now) :=
  ⟨nodup_dueForDispatch, fun _ h =>
    (mem_dueForDispatch h).imp_left fun hm => Table.get_eq_some.mpr ⟨hm, rfl⟩⟩

/-- What is pending after the lease of the first row. -/
theorem Pending.tail {due : List AsyncTask} (h : Pending tbl now (row :: due)) {now' : Time}
    (hle : now ≤ now') : Pending (withLease leaseSeconds now row tbl) now' due := by
  obtain ⟨hnew, hnodup⟩ := List.nodup_cons.mp h.nodup
  refine ⟨hnodup, fun r hr => ?_⟩
  obtain ⟨hget, hdue⟩ := h.rows r (List.mem_cons_of_mem _ hr)
  have hne : r.taskId ≠ row.taskId := fun he => hnew (List.mem_map.mpr ⟨r, hr, he⟩)
  exact ⟨(Table.get_exec_of_ne hne).trans hget, due_mono hdue hle⟩

/-- The rows are leased, and no other row is changed. -/
structure Leased (leaseSeconds : Seconds) (now : Time) (due : List AsyncTask) (tbl tbl' : Table) :
    Prop where
  rows : ∀ row ∈ due, ∃ now' ≥ now, tbl'.get row.taskId = some (leased leaseSeconds now' row)
  others : ∀ taskId, (∀ row ∈ due, row.taskId ≠ taskId) → tbl'.get taskId = tbl.get taskId

variable {E : Surroundings} {s : Tick} {due : List AsyncTask} {n : ℕ}

/-- The tick once it leased a row, and put it on the bus. -/
def dispatched (C : Container) (leaseSeconds : Seconds) (E : Surroundings) (row : AsyncTask)
    (s : Tick) : Tick :=
  ⟨withLease leaseSeconds (E.clock s.readings) row s.table, s.bus ++ [messageOf C row],
    s.readings + 1⟩

/-- The first row is leased; where the bus refuses it, that is the end. -/
theorem run_cons (h : Pending s.table (E.clock s.readings) (row :: due)) :
    (dispatchAll C leaseSeconds (row :: due) n).run (serve E) s =
      match E.refuses (messageOf C row) with
      | some x => (.error x, { dispatched C leaseSeconds E row s with bus := s.bus })
      | none => (dispatchAll C leaseSeconds due (n + 1)).run (serve E)
          (dispatched C leaseSeconds E row s) := by
  obtain ⟨hget, hdue⟩ := h.rows row List.mem_cons_self
  obtain ⟨⟨queue, name⟩, htarget⟩ := target_of_due (C := C) hdue
  obtain ⟨hok, -⟩ := exec_lease leaseSeconds hget hdue
  have hmessage : messageOf C row = ⟨queue, name, row.taskId⟩ := by simp [messageOf, htarget]
  have hserve : serve E (.apply (E.clock s.readings) row.taskId
      (.leaseDispatch leaseSeconds [row.status])) { s with readings := s.readings + 1 } =
      (.ok true, { dispatched C leaseSeconds E row s with bus := s.bus }) := by
    refine Prod.ext ?_ rfl
    change Except.mapError _ (Table.exec _ _ _ _).1 = _
    rw [hok]
    rfl
  have hbody : dispatchAll C leaseSeconds (row :: due) n =
      (call .now).bind fun now =>
        (call (.apply now row.taskId (.leaseDispatch leaseSeconds [row.status]))).bind fun ok : Bool =>
          if ok then (call (.enqueue ⟨queue, name, row.taskId⟩)).bind fun _ =>
            dispatchAll C leaseSeconds due (n + 1)
          else dispatchAll C leaseSeconds due n := by
    rw [dispatchAll, htarget]
    rfl
  rw [hbody, Prog.run_bind, call, Prog.run_perform]
  change Prog.run (serve E) ((call (.apply (E.clock s.readings) row.taskId _)).bind _)
    { s with readings := s.readings + 1 } = _
  rw [Prog.run_bind, call, Prog.run_perform, hserve]
  change Prog.run (serve E) ((call (.enqueue _)).bind _) _ = _
  rw [Prog.run_bind, call, Prog.run_perform, hmessage]
  simp only [serve]
  cases E.refuses ⟨queue, name, row.taskId⟩ with
  | some x => rfl
  | none => simp [dispatched, hmessage]

/-- Where the bus takes every message, every row is leased. -/
theorem run_accepted (C : Container) (leaseSeconds : Seconds) (n : ℕ)
    (h : Pending s.table (E.clock s.readings) due)
    (ha : ∀ row ∈ due, E.refuses (messageOf C row) = none) :
    ∃ s', (dispatchAll C leaseSeconds due n).run (serve E) s = (.ok (n + due.length), s') ∧
      s'.bus = s.bus ++ due.map (messageOf C) ∧
      Leased leaseSeconds (E.clock s.readings) due s.table s'.table := by
  induction due generalizing s n with
  | nil => exact ⟨s, rfl, by simp, by simp, fun _ _ => rfl⟩
  | cons row due ih =>
      have hle : E.clock s.readings ≤ E.clock (s.readings + 1) := E.mono (Nat.le_succ _)
      obtain ⟨s', hrun, hbus, hleased⟩ := ih (s := dispatched C leaseSeconds E row s) (n + 1)
        (h.tail hle) fun r hr => ha r (List.mem_cons_of_mem _ hr)
      obtain ⟨hget, hdue⟩ := h.rows row List.mem_cons_self
      have hnew : ∀ r ∈ due, r.taskId ≠ row.taskId := fun r hr he =>
        (List.nodup_cons.mp h.nodup).1 (List.mem_map.mpr ⟨r, hr, he⟩)
      refine ⟨s', ?_, ?_, List.forall_mem_cons.mpr ⟨?_, fun r hr => ?_⟩, fun taskId hid => ?_⟩
      · rw [run_cons h, ha row List.mem_cons_self]
        refine hrun.trans ?_
        rw [List.length_cons, Nat.add_right_comm, Nat.add_assoc]
      · rw [hbus]
        simp [dispatched]
      · -- the leases that follow are of other rows
        exact ⟨_, le_rfl, (hleased.others row.taskId hnew).trans (exec_lease leaseSeconds hget hdue).2⟩
      · obtain ⟨now', hnow, hr'⟩ := hleased.rows r hr
        exact ⟨now', hle.trans hnow, hr'⟩
      · obtain ⟨hrow, hrest⟩ := List.forall_mem_cons.mp hid
        exact (hleased.others taskId hrest).trans (Table.get_exec_of_ne hrow.symm)

/-- Where the bus refuses a message, the loop ends there. -/
theorem run_refused (C : Container) (leaseSeconds : Seconds) (n : ℕ)
    (h : Pending s.table (E.clock s.readings) due)
    (hr : ∃ row ∈ due, E.refuses (messageOf C row) ≠ none) :
    ∃ x s', (dispatchAll C leaseSeconds due n).run (serve E) s = (.error x, s') ∧
      s'.bus = s.bus ++
        (due.takeWhile fun row => (E.refuses (messageOf C row)).isNone).map (messageOf C) := by
  induction due generalizing s n with
  | nil => simp at hr
  | cons row due ih =>
      have hle : E.clock s.readings ≤ E.clock (s.readings + 1) := E.mono (Nat.le_succ _)
      rw [run_cons h]
      cases hrow : E.refuses (messageOf C row) with
      | some x => exact ⟨x, _, rfl, by simp [hrow]⟩
      | none =>
          have hrest : ∃ row ∈ due, E.refuses (messageOf C row) ≠ none := by
            simpa [hrow] using hr
          obtain ⟨x, s', hrun, hbus⟩ := ih (s := dispatched C leaseSeconds E row s) (n + 1)
            (h.tail hle) hrest
          exact ⟨x, s', hrun, by simp [hbus, hrow, dispatched]⟩

/-! ### The tick as a whole -/

variable {batch : ℕ}

/-- The rows a tick selects. -/
def Tick.selected (E : Surroundings) (batch : ℕ) (s : Tick) : List AsyncTask :=
  s.table.dueForDispatch batch (E.clock s.readings)

theorem dispatchDue_run :
    (dispatchDue C leaseSeconds batch).run (serve E) s =
      (dispatchAll C leaseSeconds (s.selected E batch) 0).run (serve E)
        { s with readings := s.readings + 1 } := rfl

theorem Tick.pending (E : Surroundings) (batch : ℕ) (s : Tick) :
    Pending s.table (E.clock (s.readings + 1)) (s.selected E batch) := by
  have h : Pending s.table (E.clock s.readings) (s.selected E batch) := Pending.selected
  exact ⟨h.nodup, fun row hr => (h.rows row hr).imp_right fun hd =>
    due_mono hd (E.mono (Nat.le_succ _))⟩

theorem tick_accepted (leaseSeconds : Seconds)
    (ha : ∀ row ∈ s.selected E batch, E.refuses (messageOf C row) = none) :
    (tick C leaseSeconds E batch s).2.bus = s.bus ++ (s.selected E batch).map (messageOf C) ∧
      Leased leaseSeconds (E.clock (s.readings + 1)) (s.selected E batch) s.table
        (tick C leaseSeconds E batch s).2.table := by
  obtain ⟨s', hrun, hbus, hleased⟩ :=
    run_accepted C leaseSeconds 0 (s := { s with readings := s.readings + 1 })
      (Tick.pending E batch s) ha
  unfold tick
  rw [dispatchDue_run, hrun]
  exact ⟨hbus, hleased⟩

theorem tick_refused (leaseSeconds : Seconds)
    (hr : ∃ row ∈ s.selected E batch, E.refuses (messageOf C row) ≠ none) :
    (tick C leaseSeconds E batch s).2.table = s.table ∧
      (tick C leaseSeconds E batch s).2.bus = s.bus ++ ((s.selected E batch).takeWhile fun row =>
        (E.refuses (messageOf C row)).isNone).map (messageOf C) := by
  obtain ⟨x, s', hrun, hbus⟩ :=
    run_refused C leaseSeconds 0 (s := { s with readings := s.readings + 1 })
      (Tick.pending E batch s) hr
  unfold tick
  rw [dispatchDue_run, hrun]
  exact ⟨rfl, hbus⟩

/-- A lease moves `next_poll_at` past the time it is taken at. -/
theorem leased_ne {now' : Time} (hdue : AsyncGateway.dueForDispatch now row = true)
    (hle : now ≤ now') : leased leaseSeconds now' row ≠ row := by
  intro he
  obtain ⟨hat, ht⟩ := dueAt_of_due hdue
  have hnext : (some (now' + max 1 leaseSeconds) : Option Time) = some row.dueAt :=
    (congrArg AsyncTask.nextPollAt he).trans hat
  have hlt : (0 : ℚ) < max 1 leaseSeconds := lt_max_of_lt_left one_pos
  have := Option.some.inj hnext
  linarith

theorem Leased.get_ne_iff (h : Leased leaseSeconds now due tbl tbl')
    (hp : Pending tbl now due) {taskId : String} :
    tbl'.get taskId ≠ tbl.get taskId ↔ ∃ row ∈ due, row.taskId = taskId := by
  constructor
  · intro hne
    by_contra hno
    push Not at hno
    exact hne (h.others taskId hno)
  · rintro ⟨row, hrow, rfl⟩ he
    obtain ⟨now', hle, hget⟩ := h.rows row hrow
    obtain ⟨hold, hdue⟩ := hp.rows row hrow
    rw [hget, hold] at he
    exact leased_ne hdue hle (Option.some.inj he)

/-- What a tick is to come to: the rows whose lease is committed are those that have a message on
the bus, and each row whose message the bus would take has it there. -/
structure Atomic (C : Container) (E : Surroundings) (due : List AsyncTask) (tbl : Table)
    (after : Tick) : Prop where
  leases : ∀ taskId, after.table.get taskId ≠ tbl.get taskId ↔
    ∃ message ∈ after.bus, message.taskId = taskId
  others : ∀ row ∈ due, E.refuses (messageOf C row) = none → messageOf C row ∈ after.bus

/-- **A tick leases the rows it puts on the bus, and is kept from none by another, exactly where the
bus takes all the messages of the tick or none of them.** -/
theorem dispatch_atomic_iff (C : Container) (leaseSeconds : Seconds) (E : Surroundings)
    (batch : ℕ) (tbl : Table) :
    Atomic C E (Tick.selected E batch ⟨tbl, [], 0⟩) tbl (tick C leaseSeconds E batch ⟨tbl, [], 0⟩).2 ↔
      (∀ row ∈ Tick.selected E batch ⟨tbl, [], 0⟩, E.refuses (messageOf C row) = none) ∨
        ∀ row ∈ Tick.selected E batch ⟨tbl, [], 0⟩, E.refuses (messageOf C row) ≠ none := by
  generalize hs : (⟨tbl, [], 0⟩ : Tick) = s
  have htable : s.table = tbl := by rw [← hs]
  have hbus₀ : s.bus = [] := by rw [← hs]
  by_cases ha : ∀ row ∈ s.selected E batch, E.refuses (messageOf C row) = none
  · refine iff_of_true ⟨fun taskId => ?_, fun row hrow _ => ?_⟩ (.inl ha)
    · obtain ⟨hbus, hleased⟩ := tick_accepted leaseSeconds ha
      rw [← htable, hleased.get_ne_iff (Tick.pending E batch s), hbus, hbus₀]
      simp [messageOf]
    · rw [(tick_accepted leaseSeconds ha).1]
      exact List.mem_append_right _ (List.mem_map_of_mem hrow)
  · have hr : ∃ row ∈ s.selected E batch, E.refuses (messageOf C row) ≠ none := by
      push Not at ha
      exact ha
    obtain ⟨hsame, hbus⟩ := tick_refused leaseSeconds hr
    rw [hbus₀, List.nil_append] at hbus
    rw [or_iff_right ha]
    constructor
    · rintro ⟨hleases, hothers⟩ row hrow hn
      -- its message is on the bus, but its lease is rolled back
      have hno := hleases row.taskId
      rw [hsame, htable] at hno
      exact hno.mpr ⟨_, hothers row hrow hn, rfl⟩ rfl
    · intro hall
      have hempty : (tick C leaseSeconds E batch s).2.bus = [] := by
        cases hd : s.selected E batch with
        | nil => rw [hbus, hd]; rfl
        | cons row due =>
            have hrow : E.refuses (messageOf C row) ≠ none := hall row (hd ▸ List.mem_cons_self)
            rw [hbus, hd, List.takeWhile_cons_of_neg (by simpa using hrow)]
            rfl
      refine ⟨fun taskId => ?_, fun row hrow hn => absurd hn (hall row hrow)⟩
      rw [hsame, htable, hempty]
      simp

/-! ### Successive ticks -/

/-- The clock stands still, and the bus takes everything. -/
def still (now : Time) : Surroundings := ⟨fun _ => now, monotone_const, fun _ => none⟩

/-- `k` ticks of one scheduler at one time, with no other writer. -/
def ticks (C : Container) (leaseSeconds : Seconds) (now : Time) (batch k : ℕ) (s : Tick) : Tick :=
  (fun s => (tick C leaseSeconds (still now) batch s).2)^[k] s

/-- The rows that are due. -/
def dueRows (now : Time) (tbl : Table) : List AsyncTask :=
  tbl.rows.filter (AsyncGateway.dueForDispatch now)

/-- The due rows in the order they are selected in. -/
def inOrder (now : Time) (tbl : Table) : List AsyncTask :=
  (dueRows now tbl).insertionSort fun a b => a.dueAt ≤ b.dueAt

theorem nodup_dueRows : (dueRows now tbl).Nodup :=
  (List.Nodup.of_map _ tbl.taskIds).sublist List.filter_sublist

theorem mem_dueRows : row ∈ dueRows now tbl ↔
    tbl.get row.taskId = some row ∧ AsyncGateway.dueForDispatch now row = true := by
  rw [dueRows, List.mem_filter, Table.get_eq_some, and_iff_left rfl]

/-- After the leases of the first rows, the others are due. -/
theorem Leased.dueRows_perm
    (h : Leased leaseSeconds now ((inOrder now tbl).take limit) tbl tbl') :
    (dueRows now tbl').Perm ((inOrder now tbl).drop limit) := by
  have hperm : (inOrder now tbl).Perm (dueRows now tbl) := List.perm_insertionSort _ _
  have hnodup : (inOrder now tbl).Nodup := hperm.nodup_iff.mpr nodup_dueRows
  have hids : ∀ a ∈ inOrder now tbl, ∀ b ∈ inOrder now tbl, a.taskId = b.taskId → a = b := by
    intro a ha b hb he
    have hga := (mem_dueRows.mp (hperm.subset ha)).1
    have hgb := (mem_dueRows.mp (hperm.subset hb)).1
    rw [he, hgb] at hga
    exact (Option.some.inj hga).symm
  refine (List.perm_ext_iff_of_nodup nodup_dueRows (hnodup.sublist (List.drop_sublist _ _))).mpr
    fun row => ?_
  rw [← List.take_append_drop limit (inOrder now tbl)] at hperm hnodup
  constructor
  · intro hrow
    obtain ⟨hget, hdue⟩ := mem_dueRows.mp hrow
    by_cases hl : ∃ r ∈ (inOrder now tbl).take limit, r.taskId = row.taskId
    · -- its lease is not over yet
      obtain ⟨r, hr, he⟩ := hl
      obtain ⟨now', hle, hget'⟩ := h.rows r hr
      rw [he, hget] at hget'
      obtain ⟨hat, ht⟩ := dueAt_of_due hdue
      have hnext : (some row.dueAt : Option Time) = some (now' + max 1 leaseSeconds) :=
        hat.symm.trans (congrArg AsyncTask.nextPollAt (Option.some.inj hget'))
      have hlt : (0 : ℚ) < max 1 leaseSeconds := lt_max_of_lt_left one_pos
      have := Option.some.inj hnext
      exact absurd ht (by linarith)
    · push Not at hl
      rw [h.others _ hl] at hget
      have hin := hperm.symm.subset (mem_dueRows.mpr ⟨hget, hdue⟩)
      exact (List.mem_append.mp hin).resolve_left fun hm => hl row hm rfl
  · intro hrow
    have hin := List.mem_of_mem_drop hrow
    obtain ⟨hget, hdue⟩ := mem_dueRows.mp (hperm.subset (List.mem_append_right _ hrow))
    refine mem_dueRows.mpr ⟨?_, hdue⟩
    rw [h.others _ fun r hr he => ?_]
    · exact hget
    · have := hids r (List.mem_of_mem_take hr) row hin he
      exact List.disjoint_of_nodup_append hnodup hr (this ▸ hrow)

/-- `rows` are due, each once, as many as `count` allows, and none that is left is due earlier. -/
structure EarliestFirst (now : Time) (tbl : Table) (count : ℕ) (rows : List AsyncTask) : Prop where
  due : ∀ row ∈ rows, row ∈ dueRows now tbl
  once : (rows.map (·.taskId)).Nodup
  count : rows.length = min (dueRows now tbl).length count
  first : ∀ row ∈ rows, ∀ row' ∈ dueRows now tbl, row' ∉ rows → row.dueAt ≤ row'.dueAt

/-- What `k` ticks have dispatched, and what they left. -/
structure Progress (C : Container) (now : Time) (tbl : Table) (count : ℕ) (rows : List AsyncTask)
    (s : Tick) : Prop where
  bus : s.bus = rows.map (messageOf C)
  perm : (rows ++ dueRows now s.table).Perm (dueRows now tbl)
  order : ∀ row ∈ rows, ∀ row' ∈ dueRows now s.table, row.dueAt ≤ row'.dueAt
  count : rows.length = min (dueRows now tbl).length count

theorem Progress.tick {k : ℕ} {rows : List AsyncTask}
    (h : Progress C now tbl (k * batch) rows s) :
    Progress C now tbl ((k + 1) * batch) (rows ++ (inOrder now s.table).take batch)
      (tick C leaseSeconds (still now) batch s).2 := by
  obtain ⟨hbus, hleased⟩ := tick_accepted (C := C) (E := still now) (s := s) leaseSeconds
    (fun row (_ : row ∈ s.selected (still now) batch) => rfl)
  have hrest : (dueRows now (Scheduler.tick C leaseSeconds (still now) batch s).2.table).Perm
      ((inOrder now s.table).drop batch) := Leased.dueRows_perm hleased
  have hperm : (inOrder now s.table).Perm (dueRows now s.table) := List.perm_insertionSort _ _
  have hsorted : (inOrder now s.table).Pairwise fun a b => a.dueAt ≤ b.dueAt :=
    List.pairwise_insertionSort _ _
  refine ⟨?_, ?_, fun row hrow row' hrow' => ?_, ?_⟩
  · rw [hbus, h.bus, List.map_append]
    rfl
  · refine List.Perm.trans ?_ h.perm
    rw [List.append_assoc]
    refine List.Perm.append_left _ ((List.Perm.append_left _ hrest).trans ?_)
    rw [List.take_append_drop]
    exact hperm
  · have hleft := hrest.subset hrow'
    rcases List.mem_append.mp hrow with hr | hr
    · exact h.order row hr row' (hperm.subset (List.mem_of_mem_drop hleft))
    · rw [← List.take_append_drop batch (inOrder now s.table), List.pairwise_append] at hsorted
      exact hsorted.2.2 row hr row' hleft
  · have hsum := h.perm.length_eq
    have hcount := h.count
    rw [List.length_append] at hsum
    rw [List.length_append, List.length_take, hperm.length_eq, Nat.succ_mul]
    omega

/-- **One scheduler works off what is due, the earliest first, a batch at a time and nothing
twice.** -/
theorem ticks_earliest (C : Container) (leaseSeconds : Seconds) (now : Time) (batch k : ℕ)
    (tbl : Table) :
    ∃ rows, (ticks C leaseSeconds now batch k ⟨tbl, [], 0⟩).bus = rows.map (messageOf C) ∧
      EarliestFirst now tbl (k * batch) rows := by
  have hprogress : ∃ rows, Progress C now tbl (k * batch) rows
      (ticks C leaseSeconds now batch k ⟨tbl, [], 0⟩) := by
    induction k with
    | zero => exact ⟨[], rfl, .refl _, by simp, by simp⟩
    | succ k ih =>
        obtain ⟨rows, h⟩ := ih
        unfold ticks
        rw [Function.iterate_succ_apply']
        exact ⟨_, h.tick⟩
  obtain ⟨rows, h⟩ := hprogress
  have hids : ((dueRows now tbl).map (·.taskId)).Nodup :=
    tbl.taskIds.sublist (List.filter_sublist.map _)
  refine ⟨rows, h.bus, fun row hrow => h.perm.subset (List.mem_append_left _ hrow), ?_, h.count,
    fun row hrow row' hrow' hnot => h.order row hrow row' ?_⟩
  · have := (h.perm.map (·.taskId)).nodup_iff.mpr hids
    rw [List.map_append] at this
    exact this.of_append_left
  · exact (List.mem_append.mp (h.perm.symm.subset hrow')).resolve_left hnot

/-! ### A tick that is torn -/

/-- A gateway without templates. -/
def bareContainer : Container where
  registry _ _ := none
  joinUrl base path := .ok (base ++ path)

/-- A task in doubt, due at the time. -/
def doubtful (name : String) (dueAt : Time) : AsyncTask :=
  { sampleRow with
    taskId := name, idempotencyKey := name, status := submitUnknown, nextPollAt := some dueAt }

def twoDoubtful : Table := ⟨[doubtful "a" 0, doubtful "b" 1], by decide, by decide⟩

/-- The bus takes no message of the second task. -/
def refusing : Surroundings where
  clock _ := 1
  mono := monotone_const
  refuses message := if message.taskId = "b" then some (.infrastructure "queue saturated") else none

/-- The message of the first task is on the bus, and its lease is rolled back. -/
theorem dispatch_torn : ¬ Atomic bareContainer refusing
    (Tick.selected refusing 500 ⟨twoDoubtful, [], 0⟩) twoDoubtful
    (tick bareContainer 30 refusing 500 ⟨twoDoubtful, [], 0⟩).2 := by
  have hselected : Tick.selected refusing 500 ⟨twoDoubtful, [], 0⟩ =
      [doubtful "a" 0, doubtful "b" 1] := by rfl
  have hrefused : ∃ row ∈ Tick.selected refusing 500 ⟨twoDoubtful, [], 0⟩,
      refusing.refuses (messageOf bareContainer row) ≠ none :=
    ⟨doubtful "b" 1, by simp [hselected], by decide⟩
  obtain ⟨hsame, hbus⟩ := tick_refused 30 hrefused
  intro h
  refine (h.leases "a").mpr ⟨messageOf bareContainer (doubtful "a" 0), ?_, rfl⟩ (by rw [hsame])
  rw [hbus, hselected]
  decide

end Scheduler

end AsyncGateway
