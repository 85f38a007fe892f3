import AsyncGateway.Db.Table
import AsyncGateway.Workers.Ticks

/-!
# Workers — the deadline sweep and the tick of the inspector

`scan_deadlines` over the whole table: the overdue rows are listed and advanced one after the
other, in one transaction (`Inspector.scanDeadlines`).  `run_tick` runs the steps of the inspector
in order, and none of its own handles an exception (`runTick`).  The list is made by the status
and the writes are checked by the whitelist, and the two do not agree: `deadline_sweep` says on
which tables the pass does what it is for.
-/

namespace AsyncGateway

open TaskStatus

/-- The clock of a pass, by the task it has come to, and the text of an instant. -/
structure PassContext where
  now : Time
  clock : String → Time
  text : Option Time → String

namespace Inspector

variable (P : PassContext)

/-- `overdue_deadlines`. -/
def overdueDeadlines (tbl : Table) : List AsyncTask :=
  (tbl.rows.filter (overdueDeadline P.now)).take 200

/-- What the pass asks for a task whose deadline has passed. -/
def timeOutOp (task : AsyncTask) : DaoOp :=
  .advance timeout (some [task.status])
    [.errorCode (some .timeout),
      .errorMessage (some ("deadline exceeded at " ++ P.text task.deadlineAt)),
      .finishedAt (some (P.clock task.taskId)), .nextPollAt none]

/-- The pass over the rows it listed; how many were moved. -/
def timeOut : List AsyncTask → Session ℕ
  | [] => pure 0
  | task :: rows => do
      let moved ← Session.exec (P.clock task.taskId) task.taskId (timeOutOp P task)
      let actions ← timeOut rows
      pure (if moved then actions + 1 else actions)

/-- `scan_deadlines`. -/
def scanDeadlines : Table → Except Exn ℕ × Table :=
  sessionScope fun tbl => timeOut P (overdueDeadlines P tbl) tbl

end Inspector

/-! ### The tick -/

/-- The steps of `run_tick`, in their order. -/
inductive TickStep : Type where
  | acceptedStalls
  | deadlines
  | unknownBounded
  | orphans
  | transfers
  | calibratedChannels
  | gauges
  deriving DecidableEq

def TickStep.all : List TickStep :=
  [acceptedStalls, deadlines, unknownBounded, orphans, transfers, calibratedChannels, gauges]

/-- Steps one after the other: those that were started, and the table.  An exception of one leaves
them all. -/
def runSteps (perform : TickStep → Table → Except Exn ℕ × Table) :
    List TickStep → Table → List TickStep × Table
  | [], tbl => ([], tbl)
  | step :: steps, tbl =>
      match perform step tbl with
      | (.ok _, tbl') => ((step :: (runSteps perform steps tbl').1), (runSteps perform steps tbl').2)
      | (.error _, tbl') => ([step], tbl')

/-- `run_tick`; what its other steps do is left open. -/
def runTick (P : PassContext) (others : TickStep → Table → Except Exn ℕ × Table) :
    Table → List TickStep × Table :=
  runSteps (fun step => if step = .deadlines then Inspector.scanDeadlines P else others step)
    TickStep.all

/-! ### What the pass does to the rows it lists -/

namespace Inspector

variable {P : PassContext} {tbl : Table}

/-- The pass raises at the first listed row without an edge to `timeout`. -/
theorem timeOut_error {rows : List AsyncTask} {row : AsyncTask} (hrow : row ∈ rows)
    (he : ¬ Edge row.status timeout) : ∃ x, timeOut P rows tbl = .error x := by
  induction rows generalizing tbl with
  | nil => exact absurd hrow List.not_mem_nil
  | cons task rows ih =>
      simp only [timeOut, bind, StateT.bind, Session.exec, Except.bind]
      rcases hx : tbl.exec (P.clock task.taskId) task.taskId (timeOutOp P task) with ⟨r, tbl'⟩
      cases r with
      | error x => exact ⟨.transitionError x, rfl⟩
      | ok b =>
          rcases List.mem_cons.mp hrow with rfl | hmem
          · have hr : (tbl.exec (P.clock row.taskId) row.taskId (timeOutOp P row)).1 =
                .error ⟨row.status, timeout⟩ := Table.exec_advance_error he
            have hb : (tbl.exec (P.clock row.taskId) row.taskId (timeOutOp P row)).1 = .ok b :=
              congrArg Prod.fst hx
            exact absurd (hr.symm.trans hb) (by simp)
          · obtain ⟨x, hx'⟩ : ∃ x, timeOut P rows tbl' = .error x := ih hmem
            exact ⟨x, by simp [hx']⟩

/-- A row that has timed out, as the pass leaves it. -/
def timedOut (P : PassContext) (row : AsyncTask) : AsyncTask :=
  ((timeOutOp P row).exec (P.clock row.taskId) row).2

theorem exec_timeOutOp {row : AsyncTask} (he : Edge row.status timeout) :
    (timeOutOp P row).exec (P.clock row.taskId) row = (.ok true, timedOut P row) ∧
      (timedOut P row).status = timeout := by
  have ha : assertTransitions timeout [row.status] = .ok () :=
    assertTransitions_ok.mpr (by simpa using he)
  simp [timedOut, timeOutOp, DaoOp.exec, DaoOp.run, advance, ha, bind, Except.bind, cas,
    List.foldl_append, Write.apply]

/-- Where every listed row has the edge, the pass moves them all, and no other row. -/
theorem timeOut_ok {rows : List AsyncTask} (hne : (rows.map (·.taskId)).Nodup)
    (hget : ∀ row ∈ rows, tbl.get row.taskId = some row)
    (he : ∀ row ∈ rows, Edge row.status timeout) :
    ∃ tbl', timeOut P rows tbl = .ok (rows.length, tbl') ∧
      (∀ row ∈ rows, tbl'.get row.taskId = some (timedOut P row)) ∧
      ∀ taskId, (∀ row ∈ rows, row.taskId ≠ taskId) → tbl'.get taskId = tbl.get taskId := by
  induction rows generalizing tbl with
  | nil => exact ⟨tbl, rfl, by simp, fun _ _ => rfl⟩
  | cons row rows ih =>
      obtain ⟨hnew, hne'⟩ := List.nodup_cons.mp hne
      have hrow := hget row List.mem_cons_self
      have hother : ∀ r ∈ rows, r.taskId ≠ row.taskId := fun r hr h =>
        hnew (List.mem_map.mpr ⟨r, hr, h⟩)
      obtain ⟨hexec, -⟩ := exec_timeOutOp (P := P) (he row List.mem_cons_self)
      obtain ⟨h₁, h₂⟩ :
          (tbl.exec (P.clock row.taskId) row.taskId (timeOutOp P row)).1 = .ok true ∧
          (tbl.exec (P.clock row.taskId) row.taskId (timeOutOp P row)).2.get row.taskId =
            some (timedOut P row) := by
        have he : ((timeOutOp P row).exec (P.clock row.taskId) row).1 = .ok true :=
          congrArg Prod.fst hexec
        exact he ▸ Table.get_exec_self hrow
      -- the rows to come are still as they were read
      have hget' : ∀ r ∈ rows,
          (tbl.exec (P.clock row.taskId) row.taskId (timeOutOp P row)).2.get r.taskId = some r :=
        fun r hr => (Table.get_exec_of_ne (hother r hr)).trans (hget r (List.mem_cons_of_mem _ hr))
      obtain ⟨tbl', hrun, hdone, hrest⟩ :=
        ih hne' hget' fun r hr => he r (List.mem_cons_of_mem _ hr)
      refine ⟨tbl', ?_, List.forall_mem_cons.mpr ⟨?_, hdone⟩, fun taskId hid => ?_⟩
      · have hx : tbl.exec (P.clock row.taskId) row.taskId (timeOutOp P row) =
            (.ok true, (tbl.exec (P.clock row.taskId) row.taskId (timeOutOp P row)).2) :=
          Prod.ext h₁ rfl
        simp only [timeOut, bind, StateT.bind, Session.exec, Except.bind]
        rw [hx]
        simp only [hrun]
        rfl
      · exact (hrest _ hother).trans h₂
      · rw [hrest taskId fun r hr => hid r (List.mem_cons_of_mem _ hr)]
        exact Table.get_exec_of_ne (hid row List.mem_cons_self).symm

theorem mem_overdueDeadlines {row : AsyncTask} (h : row ∈ overdueDeadlines P tbl) :
    tbl.get row.taskId = some row ∧ row.status ∈ activeStatuses := by
  obtain ⟨hmem, ho⟩ := List.mem_filter.mp (List.mem_of_mem_take h)
  refine ⟨Table.get_eq_some.mpr ⟨hmem, rfl⟩, ?_⟩
  simp only [overdueDeadline, Bool.and_eq_true, decide_eq_true_eq] at ho
  exact ho.1

theorem nodup_overdueDeadlines : ((overdueDeadlines P tbl).map (·.taskId)).Nodup :=
  tbl.taskIds.sublist (((List.take_sublist _ _).trans List.filter_sublist).map _)

theorem overdueDeadlines_single {row : AsyncTask} (h : row ∈ overdueDeadlines P tbl) :
    overdueDeadlines P (.single row) = [row] := by
  have ho := (List.mem_filter.mp (List.mem_of_mem_take h)).2
  simp [overdueDeadlines, Table.single, ho]

/-! ### What the pass is for -/

/-- No listed row is of an active status that has no edge to `timeout`. -/
def Sweepable (P : PassContext) (tbl : Table) : Prop :=
  ∀ row ∈ overdueDeadlines P tbl, row.status ≠ submitUnknown ∧ row.status ≠ failed

/-- The pass does what it is for. -/
structure Sweeps (P : PassContext) (tbl : Table) : Prop where
  /-- It ends without an exception. -/
  quiet : ∃ actions, (scanDeadlines P tbl).1 = .ok actions
  /-- A listed row comes to a business-terminal status, or is left alone. -/
  handled : ∀ row ∈ overdueDeadlines P tbl, ∃ row',
    (scanDeadlines P tbl).2.get row.taskId = some row' ∧
      (row'.status ∈ businessTerminal ∨ row' = row)
  /-- It comes to what it would come to as the only row of the table. -/
  alone : ∀ row ∈ overdueDeadlines P tbl,
    (scanDeadlines P tbl).2.get row.taskId = (scanDeadlines P (.single row)).2.get row.taskId
  /-- The tick that comes to the pass executes all its steps, unless one of the others raises. -/
  goesOn : ∀ others : TickStep → Table → Except Exn ℕ × Table,
    (∀ step tbl', ∃ actions, (others step tbl').1 = .ok actions) →
      ∀ tbl', (others .acceptedStalls tbl').2 = tbl → (runTick P others tbl').1 = TickStep.all

theorem Sweepable.edge (h : Sweepable P tbl) {row : AsyncTask}
    (hrow : row ∈ overdueDeadlines P tbl) : Edge row.status timeout := by
  obtain ⟨hu, hf⟩ := h row hrow
  have ha := (mem_overdueDeadlines hrow).2
  revert hu hf ha
  cases row.status <;> decide

/-- The pass over a sweepable table. -/
theorem Sweepable.scanDeadlines (h : Sweepable P tbl) :
    (scanDeadlines P tbl).1 = .ok (overdueDeadlines P tbl).length ∧
      ∀ row ∈ overdueDeadlines P tbl,
        (scanDeadlines P tbl).2.get row.taskId = some (timedOut P row) := by
  obtain ⟨tbl', hrun, hdone, -⟩ := timeOut_ok (P := P) nodup_overdueDeadlines
    (fun row hrow => (mem_overdueDeadlines hrow).1) (fun row hrow => h.edge hrow)
  simpa [Inspector.scanDeadlines, sessionScope, hrun] using hdone

theorem Sweepable.single (h : Sweepable P tbl) {row : AsyncTask}
    (hrow : row ∈ overdueDeadlines P tbl) : Sweepable P (.single row) := by
  intro row' hrow'
  rw [overdueDeadlines_single hrow] at hrow'
  cases List.mem_singleton.mp hrow'
  exact h _ hrow

section Tick

variable {perform : TickStep → Table → Except Exn ℕ × Table} {steps : List TickStep}

theorem runSteps_cons {step : TickStep} {actions : ℕ}
    (h : (perform step tbl).1 = .ok actions) :
    (runSteps perform (step :: steps) tbl).1 =
      step :: (runSteps perform steps (perform step tbl).2).1 := by
  rw [runSteps]
  split
  · rename_i hx
    rw [hx]
  · rename_i hx
    rw [hx] at h
    cases h

/-- A tick whose steps all end starts them all. -/
theorem runSteps_all
    (h : ∀ step ∈ steps, ∀ tbl', ∃ actions, (perform step tbl').1 = .ok actions) :
    (runSteps perform steps tbl).1 = steps := by
  induction steps generalizing tbl with
  | nil => rfl
  | cons step steps ih =>
      obtain ⟨actions, ha⟩ := h step List.mem_cons_self tbl
      rw [runSteps_cons ha, ih fun s hs => h s (List.mem_cons_of_mem _ hs)]

end Tick

/-- **The deadline sweep does what it is for on exactly the tables where no listed row is
`submit_unknown` or `failed`.**  Everywhere else it raises, and rolls back what it did. -/
theorem deadline_sweep (P : PassContext) (tbl : Table) : Sweeps P tbl ↔ Sweepable P tbl := by
  constructor
  · rintro ⟨⟨actions, hok⟩, -⟩ row hrow
    have hraises : ¬ Edge row.status timeout → False := fun he => by
      obtain ⟨x, hx⟩ : ∃ x, timeOut P (overdueDeadlines P tbl) tbl = .error x :=
        timeOut_error hrow he
      simp [scanDeadlines, sessionScope, hx] at hok
    constructor <;> intro hs <;> exact hraises (hs ▸ by decide)
  · intro h
    obtain ⟨hok, hdone⟩ := h.scanDeadlines
    refine ⟨⟨_, hok⟩, fun row hrow => ?_, fun row hrow => ?_, fun others hothers tbl' htbl => ?_⟩
    · exact ⟨_, hdone row hrow, .inl ((exec_timeOutOp (h.edge hrow)).2 ▸ by decide)⟩
    · have hself : row ∈ overdueDeadlines P (.single row) := by
        simp [overdueDeadlines_single hrow]
      rw [hdone row hrow, (h.single hrow).scanDeadlines.2 row hself]
    · obtain ⟨actions, ha⟩ := hothers .acceptedStalls tbl'
      subst htbl
      rw [runTick, TickStep.all, runSteps_cons (by simpa using ha),
        runSteps_cons (by simpa using hok), runSteps_all]
      intro step hstep tbl''
      have hne : step ≠ .deadlines := by
        rintro rfl
        simp at hstep
      simpa [hne] using hothers step tbl''

/-- An overdue row. -/
def overdueSample (taskId : String) (status : TaskStatus) : AsyncTask :=
  { sampleRow with taskId := taskId, idempotencyKey := taskId, status := status,
                   deadlineAt := some 0 }

/-- A task in doubt, and one that was accepted, both overdue. -/
def overdueTable : Table :=
  ⟨[overdueSample "doubt" submitUnknown, overdueSample "task" accepted], by decide, by decide⟩

def samplePass : PassContext := ⟨1, fun _ => 1, fun _ => ""⟩

/-- The task in doubt stops the pass: the accepted one stays as it is, which alone would have been
moved, and the tick executes no further step. -/
theorem deadline_sweep_blocked :
    (scanDeadlines samplePass overdueTable).1 =
        .error (.transitionError ⟨submitUnknown, timeout⟩) ∧
      ((scanDeadlines samplePass overdueTable).2.get "task").map (·.status) = some accepted ∧
      ((scanDeadlines samplePass (.single (overdueSample "task" accepted))).2.get "task").map
        (·.status) = some timeout ∧
      (runTick samplePass (fun _ tbl => (.ok 0, tbl)) overdueTable).1 =
        [.acceptedStalls, .deadlines] ∧
      ¬ Sweeps samplePass overdueTable := by
  have hraised : (scanDeadlines samplePass overdueTable).1 =
      .error (.transitionError ⟨submitUnknown, timeout⟩) := by rfl
  refine ⟨hraised, by decide, by decide, by decide, ?_⟩
  rintro ⟨⟨actions, hok⟩, -⟩
  rw [hraised] at hok
  cases hok

end Inspector

end AsyncGateway
