import AsyncGateway.Db.Dao

/-!
# Db — the trajectory of a row

What an operation of the DAO can do to a row, said once for each group of columns: the status
moves along the whitelist (`DaoOp.status_run`), a result reference is set at most once
(`DaoOp.resultRef_run`), an operation that does not report success leaves the row as it was.  From
these, what any sequence of operations can do (`writes`), in any order and with any arguments.
-/

namespace AsyncGateway

open TaskStatus

variable {now : Time} {row row' : AsyncTask} {op : DaoOp}

/-! ### One operation -/

@[simp] theorem foldl_cols (row : AsyncTask) (values : List Assign) :
    (cols values).foldl Write.apply row = assign row values := by
  induction values generalizing row with
  | nil => rfl
  | cons a values ih => simpa [cols, Write.apply] using ih (a.apply row)

theorem cas_eq_some {expected : List TaskStatus} {values : List Write} {extraWhere : Bool} :
    cas now row expected values extraWhere = some row' ↔
      row.status ∈ expected ∧ extraWhere = true ∧
        row' = values.foldl Write.apply (row.touch now) := by
  unfold cas
  split_ifs with h₁ h₂
  · simp [h₁]
  · simp [h₂.1, h₂.2, eq_comm]
  · refine ⟨fun h => absurd h (by simp), ?_⟩
    rintro ⟨hs, he, -⟩
    exact h₂ ⟨hs, he⟩

theorem assertTransitions_ok {dst : TaskStatus} {sources : List TaskStatus} :
    assertTransitions dst sources = .ok () ↔ ∀ src ∈ sources, Edge src dst := by
  induction sources with
  | nil => simp [assertTransitions]
  | cons src sources ih =>
      rw [assertTransitions, List.forall_mem_cons, ← ih]
      by_cases h : Edge src dst
      · simp [assertTransition_ok.mpr h, h, Except.bind]
      · have hc : canTransition src dst = false := by simpa [canTransition, Edge] using h
        simp [assertTransition, hc, h, Except.bind]

/-- Where `advance` does not raise, its sources all have the edge. -/
theorem advance_eq_some {dst : TaskStatus} {expected : Option (List TaskStatus)}
    {values : List Assign} (h : advance now row dst expected values = .ok (some row')) :
    Edge row.status dst ∧ (∀ sources, expected = some sources → row.status ∈ sources) ∧
      row' = (assign (row.touch now) (advanceValues now dst values)).withStatus dst := by
  have cas_spec : ∀ {sources : List TaskStatus},
      cas now row sources (cols (advanceValues now dst values) ++ [.status dst]) true = some row' →
      row.status ∈ sources ∧
        row' = (assign (row.touch now) (advanceValues now dst values)).withStatus dst := by
    intro sources hc
    obtain ⟨hs, -, rfl⟩ := cas_eq_some.mp hc
    exact ⟨hs, by simp [List.foldl_append, Write.apply]⟩
  cases expected with
  | none =>
      simp only [advance, bind, Except.bind, Except.ok.injEq] at h
      obtain ⟨hs, he⟩ := cas_spec h
      exact ⟨of_decide_eq_true (List.mem_filter.mp hs).2, by simp, he⟩
  | some sources =>
      simp only [advance, bind, Except.bind] at h
      cases ha : assertTransitions dst sources with
      | error e => simp [ha] at h
      | ok u =>
          simp only [ha, Except.ok.injEq] at h
          obtain ⟨hs, he⟩ := cas_spec h
          refine ⟨assertTransitions_ok.mp ha _ hs, ?_, he⟩
          rintro _ ⟨⟩
          exact hs

namespace DaoOp

/-- An operation leaves the status alone or moves it along the whitelist. -/
theorem status_run (h : op.run now row = .ok (some row')) :
    row'.status = row.status ∨ Edge row.status row'.status := by
  cases op with
  | advance dst expected values =>
      obtain ⟨he, -, rfl⟩ := advance_eq_some h
      exact .inr he
  | enterUnknown errorCode errorMessage expected =>
      rw [run] at h
      obtain ⟨he, -, rfl⟩ := advance_eq_some h
      exact .inr he
  | relocateCompensate upstreamTaskId target rawStatus snapshot nextPollAt note =>
      rw [run] at h
      obtain ⟨he, -, rfl⟩ := advance_eq_some h
      exact .inr he
  | markSubmitted upstreamTaskId rawStatus snapshot nextPollAt startedAt =>
      obtain ⟨hs, -, rfl⟩ := cas_eq_some.mp (Except.ok.inj h)
      simp only [List.mem_singleton] at hs
      rw [hs]
      exact .inr (by simp [Write.apply]; decide)
  | cancelImmediatelyAfterSubmit =>
      obtain ⟨hs, -, rfl⟩ := cas_eq_some.mp (Except.ok.inj h)
      simp only [List.mem_cons, List.not_mem_nil, or_false] at hs
      rcases hs with hs | hs <;> rw [hs] <;> exact .inr (by simp [Write.apply]; decide)
  | _ =>
      obtain ⟨-, -, rfl⟩ := cas_eq_some.mp (Except.ok.inj h)
      simp [Write.apply]

/-- An operation leaves the result reference alone, or sets one where there was none. -/
theorem resultRef_run (h : op.run now row = .ok (some row')) :
    row'.resultRef = row.resultRef ∨ row.resultRef = none := by
  cases op with
  | advance dst expected values =>
      obtain ⟨-, -, rfl⟩ := advance_eq_some h
      simp
  | enterUnknown errorCode errorMessage expected =>
      rw [run] at h
      obtain ⟨-, -, rfl⟩ := advance_eq_some h
      simp
  | relocateCompensate upstreamTaskId target rawStatus snapshot nextPollAt note =>
      rw [run] at h
      obtain ⟨-, -, rfl⟩ := advance_eq_some h
      simp
  | setResultRef resultRef summary degraded =>
      obtain ⟨-, hr, rfl⟩ := cas_eq_some.mp (Except.ok.inj h)
      exact .inr (by simpa using hr)
  | _ =>
      obtain ⟨-, -, rfl⟩ := cas_eq_some.mp (Except.ok.inj h)
      simp [Write.apply]

/-- No operation touches the keys of a row. -/
theorem keys_run (h : op.run now row = .ok (some row')) : row'.keys = row.keys := by
  cases op with
  | advance dst expected values =>
      obtain ⟨-, -, rfl⟩ := advance_eq_some h
      simp
  | enterUnknown errorCode errorMessage expected =>
      rw [run] at h
      obtain ⟨-, -, rfl⟩ := advance_eq_some h
      simp
  | relocateCompensate upstreamTaskId target rawStatus snapshot nextPollAt note =>
      rw [run] at h
      obtain ⟨-, -, rfl⟩ := advance_eq_some h
      simp
  | _ =>
      obtain ⟨-, -, rfl⟩ := cas_eq_some.mp (Except.ok.inj h)
      rw [foldl_apply_keys, AsyncTask.touch_keys]

theorem exec_keys : (op.exec now row).2.keys = row.keys := by
  unfold exec
  split
  · exact keys_run ‹_›
  · rfl
  · rfl

/-- Only an operation that reports success changes the row. -/
theorem exec_of_not_ok (h : (op.exec now row).1 ≠ .ok true) : (op.exec now row).2 = row := by
  unfold exec at *
  split <;> simp_all

theorem exec_status : (op.exec now row).2.status = row.status ∨
    Edge row.status (op.exec now row).2.status := by
  unfold exec
  split
  · exact status_run ‹_›
  · exact .inl rfl
  · exact .inl rfl

theorem exec_resultRef {ref : String} (h : row.resultRef = some ref) :
    (op.exec now row).2.resultRef = some ref := by
  unfold exec
  split
  · rcases resultRef_run ‹_› with hr | hr
    · exact hr.trans h
    · simp [h] at hr
  · exact h
  · exact h

/-- A terminal row keeps its status, but for the closing of a task that awaits a human. -/
theorem exec_terminal (h : row.status ∈ businessTerminal) :
    (op.exec now row).2.status = row.status ∨
      row.status = deadAwaitingConfirm ∧ (op.exec now row).2.status = dead :=
  exec_status.imp id (edge_of_terminal h)

end DaoOp

/-! ### Sequences of operations -/

/-- The row after the operations of a list, each at its time. -/
def writes (row : AsyncTask) (ops : List (Time × DaoOp)) : AsyncTask :=
  ops.foldl (fun row op => (op.2.exec op.1 row).2) row

theorem writes_append (row : AsyncTask) (before later : List (Time × DaoOp)) :
    writes row (before ++ later) = writes (writes row before) later := List.foldl_append

theorem writes_resultRef {ref : String} (h : row.resultRef = some ref)
    (ops : List (Time × DaoOp)) : (writes row ops).resultRef = some ref := by
  induction ops generalizing row with
  | nil => exact h
  | cons op ops ih => exact ih (DaoOp.exec_resultRef h)

theorem writes_terminal (h : row.status ∈ businessTerminal) (ops : List (Time × DaoOp)) :
    (writes row ops).status = row.status ∨
      row.status = deadAwaitingConfirm ∧ (writes row ops).status = dead := by
  induction ops generalizing row with
  | nil => exact .inl rfl
  | cons op ops ih =>
      have step : (op.2.exec op.1 row).2.status = row.status ∨
          row.status = deadAwaitingConfirm ∧ (op.2.exec op.1 row).2.status = dead :=
        DaoOp.exec_terminal h
      rcases step with hs | ⟨hd, hs⟩
      · have rest := ih (hs ▸ h)
        rwa [hs] at rest
      · refine .inr ⟨hd, ?_⟩
        have ht : (op.2.exec op.1 row).2.status ∈ businessTerminal := hs ▸ by decide
        rcases ih ht with he | ⟨he, -⟩
        · exact he.trans hs
        · rw [hs] at he
          exact absurd he (by decide)

/-- **The trajectory of a row.**  Over any sequence of operations: every change of the status is
an edge of the whitelist; a terminal row never changes status again, but for the closing of a
task that awaits a human; a result reference never changes; and an operation that returns `False`
or raises leaves the row as it was. -/
theorem status_trajectory (row : AsyncTask) (ops : List (Time × DaoOp)) (now : Time) (op : DaoOp)
    (later : List (Time × DaoOp)) :
    ((op.exec now (writes row ops)).2.status ≠ (writes row ops).status →
        Edge (writes row ops).status (op.exec now (writes row ops)).2.status) ∧
      ((writes row ops).status ∈ businessTerminal →
        (writes row (ops ++ later)).status = (writes row ops).status ∨
          (writes row ops).status = deadAwaitingConfirm ∧
            (writes row (ops ++ later)).status = dead) ∧
      (∀ ref, (writes row ops).resultRef = some ref →
        (writes row (ops ++ later)).resultRef = some ref) ∧
      ((op.exec now (writes row ops)).1 ≠ .ok true →
        (op.exec now (writes row ops)).2 = writes row ops) := by
  refine ⟨fun h => ?_, fun h => ?_, fun ref h => ?_, DaoOp.exec_of_not_ok⟩
  · exact DaoOp.exec_status.resolve_left h
  · rw [writes_append]
    exact writes_terminal h later
  · rw [writes_append]
    exact writes_resultRef h later

end AsyncGateway
