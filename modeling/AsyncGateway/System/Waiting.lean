import AsyncGateway.Workers.Dispatch

/-!
# System — how long a due task waits

A scheduler works through the due tasks a batch at a time, while other processes write to the table
and new tasks come in.  A task that is due waits for the tasks that were due no later than it
(`ahead`), and for those that are put in front of it since (`overtakers`); a tick that has the clock
past its time, and a bus that takes its messages, takes a batch of these away (`passes`).  So the
task is dispatched once the passes outweigh the others (`dispatched_within`): nothing starves, but
by a stream of tasks that are put in front of it.

A tick is one transaction here, and the other writers come between the ticks.
-/

namespace AsyncGateway.Scheduler

variable (C : Container) (leaseSeconds : Seconds) (batch : ℕ)

/-- What happens to the table: a tick, a write of another process, or a new task. -/
inductive Happening : Type where
  | tick (E : Surroundings)
  | write (now : Time) (taskId : String) (op : DaoOp)
  | insert (row : AsyncTask)

namespace Happening

def apply (s : Tick) : Happening → Tick
  | tick E => (Scheduler.tick C leaseSeconds E batch { s with readings := 0 }).2
  | write now taskId op => { s with table := (s.table.exec now taskId op).2 }
  | insert row => { s with table := (s.table.insert row).getD s.table }

/-- A tick that the task takes part in: its time has come, and the bus takes what is selected. -/
def passing (row : AsyncTask) (s : Tick) : Happening → Bool
  | tick E => decide (row.dueAt ≤ E.clock 0) &&
      (s.table.dueForDispatch batch (E.clock 0)).all fun r => (E.refuses (messageOf C r)).isNone
  | _ => false

end Happening

/-- The tasks that are due no later than this one, and the task itself. -/
def ahead (row : AsyncTask) (tbl : Table) : ℕ := (dueRows row.dueAt tbl).length

def afterAll (s : Tick) (es : List Happening) : Tick :=
  es.foldl (Happening.apply C leaseSeconds batch) s

/-- How many tasks are put in front of the task. -/
def overtakers (row : AsyncTask) : Tick → List Happening → ℕ
  | _, [] => 0
  | s, e :: es =>
      let s' := e.apply C leaseSeconds batch s
      ahead row s'.table - ahead row s.table + overtakers row s' es

/-- How many ticks the task takes part in. -/
def passes (row : AsyncTask) : Tick → List Happening → ℕ
  | _, [] => 0
  | s, e :: es =>
      (if e.passing C batch row s then 1 else 0) +
        passes row (e.apply C leaseSeconds batch s) es

variable {C leaseSeconds batch} {tbl tbl' : Table} {now t : Time} {row r : AsyncTask} {s : Tick}
  {E : Surroundings}

/-! ### What is ahead -/

/-- A due row is due from its time on. -/
theorem due_at (h : AsyncGateway.dueForDispatch now r = true) (hle : r.dueAt ≤ t) :
    AsyncGateway.dueForDispatch t r = true := by
  obtain ⟨hat, -⟩ := dueAt_of_due h
  simp only [AsyncGateway.dueForDispatch, hat, Bool.and_eq_true, Option.any_some,
    decide_eq_true_eq] at h ⊢
  exact ⟨h.1, hle⟩

theorem nodup_ids_dueRows : ((dueRows now tbl).map (·.taskId)).Nodup :=
  tbl.taskIds.sublist (List.filter_sublist.map _)

/-- Tables are compared by the ids of what is ahead in them, less what was taken away. -/
theorem length_add_le {rest taken all : List AsyncTask} (hrest : (rest.map (·.taskId)).Nodup)
    (htaken : (taken.map (·.taskId)).Nodup)
    (hout : ∀ a ∈ rest, ∀ b ∈ taken, a.taskId ≠ b.taskId)
    (hin : ∀ a ∈ rest, ∃ b ∈ all, b.taskId = a.taskId) (hsub : taken ⊆ all) :
    rest.length + taken.length ≤ all.length := by
  have hnodup : (rest.map (·.taskId) ++ taken.map (·.taskId)).Nodup := by
    refine List.nodup_append.mpr ⟨hrest, htaken, ?_⟩
    simp only [List.mem_map]
    rintro _ ⟨a, ha, rfl⟩ _ ⟨b, hb, rfl⟩
    exact hout a ha b hb
  have hsubset : rest.map (·.taskId) ++ taken.map (·.taskId) ⊆ all.map (·.taskId) := by
    intro taskId hid
    rcases List.mem_append.mp hid with hid | hid <;> obtain ⟨a, ha, rfl⟩ := List.mem_map.mp hid
    · obtain ⟨b, hb, he⟩ := hin a ha
      exact List.mem_map.mpr ⟨b, hb, he⟩
    · exact List.mem_map_of_mem (hsub ha)
  simpa using (List.subperm_of_subset hnodup hsubset).length_le

/-- A lease that is taken by a clock past `t` puts the row behind `t`. -/
theorem not_due_leased {now' : Time} (hle : t ≤ now') :
    AsyncGateway.dueForDispatch t (leased leaseSeconds now' r) = false := by
  have hlt : t < now' + max 1 leaseSeconds := by
    have : (0 : ℚ) < max 1 leaseSeconds := lt_max_of_lt_left one_pos
    linarith
  simp [AsyncGateway.dueForDispatch, leased, hlt]

/-- What is ahead after some leases was ahead before them. -/
theorem Leased.ahead_before {due : List AsyncTask} (h : Leased leaseSeconds now due tbl tbl')
    (hdue : ∀ a ∈ due, tbl.get a.taskId = some a ∧ AsyncGateway.dueForDispatch now a = true)
    (hr : r ∈ dueRows t tbl') : ∃ a ∈ dueRows t tbl, a.taskId = r.taskId := by
  obtain ⟨hget, hd⟩ := mem_dueRows.mp hr
  by_cases hid : ∃ a ∈ due, a.taskId = r.taskId
  · obtain ⟨a, ha, he⟩ := hid
    obtain ⟨now', hnow, hget'⟩ := h.rows a ha
    rw [he, hget] at hget'
    obtain rfl := Option.some.inj hget'
    -- the lease is not past `t`, so the row was due by then
    have hlt : now' < t := by
      by_contra hle
      rw [not_due_leased (not_lt.mp hle)] at hd
      cases hd
    obtain ⟨hrow, hda⟩ := hdue a ha
    have hat := (dueAt_of_due hda).2
    exact ⟨a, mem_dueRows.mpr ⟨hrow, due_at hda (by linarith)⟩, he⟩
  · push Not at hid
    rw [h.others _ hid] at hget
    exact ⟨r, mem_dueRows.mpr ⟨hget, hd⟩, rfl⟩

/-- A due row that a selection passes over: the selection is a whole batch, due no later. -/
theorem passed_over (hrow : row ∈ dueRows now tbl) (hout : row ∉ tbl.dueForDispatch batch now) :
    (tbl.dueForDispatch batch now).length = batch ∧
      ∀ r ∈ tbl.dueForDispatch batch now, r.dueAt ≤ row.dueAt := by
  have hperm : (inOrder now tbl).Perm (dueRows now tbl) := List.perm_insertionSort _ _
  have hsorted : (inOrder now tbl).Pairwise fun a b => a.dueAt ≤ b.dueAt :=
    List.pairwise_insertionSort _ _
  have hdrop : row ∈ (inOrder now tbl).drop batch := by
    have hin := hperm.symm.subset hrow
    rw [← List.take_append_drop batch (inOrder now tbl)] at hin
    exact (List.mem_append.mp hin).resolve_left hout
  rw [← List.take_append_drop batch (inOrder now tbl), List.pairwise_append] at hsorted
  refine ⟨?_, fun r hr => hsorted.2.2 r hr row hdrop⟩
  have hlen : batch < (inOrder now tbl).length := by
    have := List.length_pos_of_mem hdrop
    rw [List.length_drop] at this
    omega
  exact List.length_take_of_le hlen.le

/-! ### One step -/

/-- A row is where it was left, and waits to be dispatched. -/
def Queued (row : AsyncTask) (s : Tick) : Prop := row ∈ dueRows row.dueAt s.table

/-- The messages that are on the bus stay there. -/
theorem bus_apply (s : Tick) (e : Happening) :
    s.bus ⊆ (e.apply C leaseSeconds batch s).bus := by
  cases e with
  | write now taskId op => exact fun _ h => h
  | insert row => exact fun _ h => h
  | tick E =>
      intro message hm
      have hs : message ∈ ({ s with readings := 0 } : Tick).bus := hm
      by_cases ha : ∀ r ∈ Tick.selected E batch { s with readings := 0 },
          E.refuses (messageOf C r) = none
      · show message ∈ (tick C leaseSeconds E batch { s with readings := 0 }).2.bus
        rw [(tick_accepted leaseSeconds ha).1]
        exact List.mem_append_left _ hs
      · push Not at ha
        show message ∈ (tick C leaseSeconds E batch { s with readings := 0 }).2.bus
        rw [(tick_refused leaseSeconds ha).2]
        exact List.mem_append_left _ hs

/-- A tick that leases what it selects, and not the row: it takes a batch away from what is ahead,
where its clock is past the time of the row. -/
theorem Queued.leased (hq : Queued row s) {now' : Time} (hle : now ≤ now')
    (h : Leased leaseSeconds now' (s.table.dueForDispatch batch now) s.table tbl')
    (hout : row ∉ s.table.dueForDispatch batch now) :
    row ∈ dueRows row.dueAt tbl' ∧
      ahead row tbl' + (if row.dueAt ≤ now then batch else 0) ≤ ahead row s.table := by
  obtain ⟨hget, hdue⟩ := mem_dueRows.mp hq
  have hselected : ∀ a ∈ s.table.dueForDispatch batch now,
      s.table.get a.taskId = some a ∧ AsyncGateway.dueForDispatch now a = true := fun a ha =>
    (mem_dueForDispatch ha).imp_left fun hm => Table.get_eq_some.mpr ⟨hm, rfl⟩
  have hother : ∀ a ∈ s.table.dueForDispatch batch now, a.taskId ≠ row.taskId := by
    intro a ha he
    obtain ⟨hgeta, -⟩ := hselected a ha
    rw [he, hget] at hgeta
    exact hout (Option.some.inj hgeta ▸ ha)
  refine ⟨mem_dueRows.mpr ⟨(h.others _ hother).trans hget, hdue⟩, ?_⟩
  have hbefore : ∀ r ∈ dueRows row.dueAt tbl', ∃ a ∈ dueRows row.dueAt s.table,
      a.taskId = r.taskId := fun r hr =>
    h.ahead_before (fun a ha => (hselected a ha).imp_right fun hd => due_mono hd hle) hr
  by_cases hpast : row.dueAt ≤ now
  · obtain ⟨hbatch, hearlier⟩ := passed_over
      (mem_dueRows.mpr ⟨hget, due_mono hdue hpast⟩) hout
    have hsum : (dueRows row.dueAt tbl').length + (s.table.dueForDispatch batch now).length ≤
        (dueRows row.dueAt s.table).length := by
      refine length_add_le nodup_ids_dueRows nodup_dueForDispatch (fun r hr a ha he => ?_) hbefore
        fun a ha => ?_
      · -- what is leased is not ahead any more
        obtain ⟨now'', hnow, hget'⟩ := h.rows a ha
        obtain ⟨hgetr, hd⟩ := mem_dueRows.mp hr
        rw [← he, hgetr] at hget'
        rw [Option.some.inj hget', not_due_leased (hpast.trans (hle.trans hnow))] at hd
        cases hd
      · obtain ⟨hgeta, hd⟩ := hselected a ha
        exact mem_dueRows.mpr ⟨hgeta, due_at hd (hearlier a ha)⟩
    rw [hbatch] at hsum
    rwa [if_pos hpast]
  · rw [if_neg hpast]
    have hsum : (dueRows row.dueAt tbl').length + ([] : List AsyncTask).length ≤
        (dueRows row.dueAt s.table).length :=
      length_add_le nodup_ids_dueRows List.nodup_nil (by simp) hbefore (List.nil_subset _)
    exact hsum

/-- A row that is still there waits on where the step is none it takes part in. -/
theorem Queued.stays (hq : Queued row s) {e : Happening}
    (hin : row ∈ (e.apply C leaseSeconds batch s).table.rows)
    (hpassing : e.passing C batch row s = false) :
    Queued row (e.apply C leaseSeconds batch s) ∧
      ahead row (e.apply C leaseSeconds batch s).table +
          (if e.passing C batch row s then batch else 0) ≤
        ahead row s.table +
          (ahead row (e.apply C leaseSeconds batch s).table - ahead row s.table) := by
  refine ⟨List.mem_filter.mpr ⟨hin, (List.mem_filter.mp hq).2⟩, ?_⟩
  simp only [hpassing, Bool.false_eq_true, if_false]
  omega

/-- A tick whose messages the bus takes dispatches the row, or passes it over. -/
theorem Queued.accepted (hq : Queued row s) {E : Surroundings}
    (ha : ∀ r ∈ s.table.dueForDispatch batch (E.clock 0), E.refuses (messageOf C r) = none) :
    messageOf C row ∈ ((Happening.tick E).apply C leaseSeconds batch s).bus ∨
      Queued row ((Happening.tick E).apply C leaseSeconds batch s) ∧
        ahead row ((Happening.tick E).apply C leaseSeconds batch s).table +
            (if (Happening.tick E).passing C batch row s then batch else 0) ≤
          ahead row s.table := by
  obtain ⟨hbus, hleased⟩ := tick_accepted (C := C) (s := { s with readings := 0 }) leaseSeconds ha
  by_cases hin : row ∈ s.table.dueForDispatch batch (E.clock 0)
  · left
    show messageOf C row ∈ (tick C leaseSeconds E batch { s with readings := 0 }).2.bus
    rw [hbus]
    exact List.mem_append_right _ (List.mem_map_of_mem hin)
  · right
    obtain ⟨hq', hle⟩ := hq.leased (E.mono (Nat.zero_le 1)) hleased hin
    refine ⟨hq', ?_⟩
    have hpassing : (Happening.tick E).passing C batch row s = decide (row.dueAt ≤ E.clock 0) := by
      simpa [Happening.passing] using fun _ r hr => ha r hr
    rw [hpassing]
    simp only [decide_eq_true_eq]
    exact hle

variable (C leaseSeconds batch)

/-- A row that others do not write to is dispatched by a step, or waits on: for what was ahead, and
what the step put in front of it, less a batch where it took part. -/
theorem Queued.apply (hq : Queued row s) {e : Happening}
    (he : ∀ now op, e ≠ .write now row.taskId op) :
    messageOf C row ∈ (e.apply C leaseSeconds batch s).bus ∨
      Queued row (e.apply C leaseSeconds batch s) ∧
        ahead row (e.apply C leaseSeconds batch s).table +
            (if e.passing C batch row s then batch else 0) ≤
          ahead row s.table +
            (ahead row (e.apply C leaseSeconds batch s).table - ahead row s.table) := by
  have hrow : row ∈ s.table.rows := (List.mem_filter.mp hq).1
  cases e with
  | write now taskId op =>
      have hid : row.taskId ≠ taskId := fun h => he now op (by rw [h])
      have hsame : Table.written now taskId op row = row := if_neg hid
      have hin : row ∈ (s.table.exec now taskId op).2.rows :=
        hsame ▸ List.mem_map_of_mem (f := Table.written now taskId op) hrow
      exact .inr (hq.stays hin rfl)
  | insert r =>
      have hin : row ∈ ((s.table.insert r).getD s.table).rows := by
        cases hi : s.table.insert r with
        | none => exact hrow
        | some tbl' =>
            rw [Option.getD_some, (Table.insert_eq_some.mp hi).2]
            exact List.mem_cons_of_mem _ hrow
      exact .inr (hq.stays hin rfl)
  | tick E =>
      by_cases ha : ∀ r ∈ s.table.dueForDispatch batch (E.clock 0), E.refuses (messageOf C r) = none
      · exact (hq.accepted ha).imp_right fun h => h.imp_right (·.trans (Nat.le_add_right _ _))
      · have hpassing : (Happening.tick E).passing C batch row s = false := by
          rw [Bool.eq_false_iff]
          intro hp
          refine ha fun r hr => ?_
          simp only [Happening.passing, Bool.and_eq_true, List.all_eq_true,
            Option.isNone_iff_eq_none] at hp
          exact hp.2 r hr
        push Not at ha
        have htable : ((Happening.tick E).apply C leaseSeconds batch s).table = s.table :=
          (tick_refused (C := C) (s := { s with readings := 0 }) leaseSeconds ha).1
        exact .inr (hq.stays (by rw [htable]; exact hrow) hpassing)

/-! ### A run -/

theorem bus_afterAll (s : Tick) (es : List Happening) :
    s.bus ⊆ (afterAll C leaseSeconds batch s es).bus := by
  induction es generalizing s with
  | nil => exact fun _ h => h
  | cons e es ih => exact fun _ h => ih _ (bus_apply s e h)

theorem Queued.afterAll {es : List Happening} (hq : Queued row s)
    (hes : ∀ now op, .write now row.taskId op ∉ es) :
    messageOf C row ∈ (afterAll C leaseSeconds batch s es).bus ∨
      Queued row (afterAll C leaseSeconds batch s es) ∧
        ahead row (afterAll C leaseSeconds batch s es).table +
            batch * passes C leaseSeconds batch row s es ≤
          ahead row s.table + overtakers C leaseSeconds batch row s es := by
  induction es generalizing s with
  | nil => exact .inr ⟨hq, by simp [Scheduler.afterAll, passes, overtakers]⟩
  | cons e es ih =>
      have he : ∀ now op, e ≠ .write now row.taskId op := fun now op h =>
        hes now op (h ▸ List.mem_cons_self)
      rcases hq.apply C leaseSeconds batch he with hbus | ⟨hq', hstep⟩
      · exact .inl (bus_afterAll C leaseSeconds batch _ es hbus)
      · rcases ih hq' fun now op h => hes now op (List.mem_cons_of_mem _ h) with hbus | ⟨hrest, hle⟩
        · exact .inl hbus
        · refine .inr ⟨hrest, ?_⟩
          simp only [passes, overtakers, mul_add, mul_ite, mul_one, mul_zero]
          simp only [Scheduler.afterAll, List.foldl_cons] at hle ⊢
          omega

/-- **No task starves**: a task that is due is on the bus once the batches of the ticks it took part
in make up for the tasks due no later than it and those put in front of it since. -/
theorem dispatched_within (C : Container) (leaseSeconds : Seconds) (batch : ℕ) (row : AsyncTask)
    (s : Tick) (es : List Happening) (hq : Queued row s)
    (hes : ∀ now op, .write now row.taskId op ∉ es)
    (hlong : ahead row s.table + overtakers C leaseSeconds batch row s es ≤
      batch * passes C leaseSeconds batch row s es) :
    messageOf C row ∈ (afterAll C leaseSeconds batch s es).bus := by
  rcases hq.afterAll C leaseSeconds batch hes with hbus | ⟨hrest, hle⟩
  · exact hbus
  · -- it is ahead of itself still
    have hpos : 0 < ahead row (afterAll C leaseSeconds batch s es).table :=
      List.length_pos_of_mem hrest
    omega

/-- Two ticks around a task that comes in with an earlier time, and a third one. -/
def overtaken : List Happening :=
  [.tick (still 1), .insert (doubtful "c" 0), .tick (still 1), .tick (still 1)]

/-- The second of two tasks, overtaken once, is dispatched by the third tick. -/
theorem dispatched_within_three : messageOf bareContainer (doubtful "b" 1) ∈
    (afterAll bareContainer 30 1 ⟨twoDoubtful, [], 0⟩ overtaken).bus := by
  refine dispatched_within bareContainer 30 1 (doubtful "b" 1) ⟨twoDoubtful, [], 0⟩ overtaken
    (List.mem_filter.mpr ⟨by simp [twoDoubtful], by decide⟩) (by simp [overtaken]) ?_
  decide +kernel

end AsyncGateway.Scheduler
