import AsyncGateway.Db.Trajectory
import AsyncGateway.Domain.Errors
import Mathlib.Data.List.Nodup

/-!
# Db — the table of all tasks

`async_task` as a whole: the rows in the order the database lists them, no two with one task id
and no two with one idempotency key and bucket (`Table`).  An operation of the DAO names its row
by the task id and leaves every other row alone (`Table.exec`); the constraints hold of what it
leaves, as it touches no key.  `Session` is what runs in one transaction, `sessionScope` its end.
-/

namespace AsyncGateway

structure Table where
  rows : List AsyncTask
  taskIds : (rows.map (·.keys.taskId)).Nodup
  /-- `uq_task_idem_window`. -/
  idempotency : (rows.map (·.keys.idempotency)).Nodup

/-- Whether the whitelist lets an operation run at all: `advance` checks it before the update. -/
def DaoOp.assertWhitelisted : DaoOp → Except TransitionError Unit
  | .advance dst (some sources) _ => assertTransitions dst sources
  | .enterUnknown _ _ expected => assertTransitions .submitUnknown (unknownSources expected)
  | .relocateCompensate _ target _ _ _ _ => assertTransitions target [.submitUnknown]
  | _ => .ok ()

namespace Table

variable (tbl : Table)

/-- A table of one row. -/
def single (row : AsyncTask) : Table := ⟨[row], by simp, by simp⟩

/-- `get`. -/
def get (taskId : String) : Option AsyncTask := tbl.rows.find? (·.taskId = taskId)

/-- `find_by_idempotency`. -/
def findByIdempotency (key : String) (bucket : ℤ) : Option AsyncTask :=
  tbl.rows.find? fun row => row.idempotencyKey = key ∧ row.idempotencyBucket = bucket

/-- `find_by_upstream_id`: the first row of the channel with that id. -/
def findByUpstreamId (channel upstreamTaskId : String) : Option AsyncTask :=
  tbl.rows.find? fun row => row.channel = channel ∧ row.upstreamTaskId = some upstreamTaskId

/-- `_find_task`: the upstream id first, else the task id. -/
def findTask (channel identifier : String) : Option AsyncTask :=
  match tbl.findByUpstreamId channel identifier with
  | some row => some row
  | none => (tbl.get identifier).filter (·.channel = channel)

theorem map_keys_update {rows : List AsyncTask} {f : AsyncTask → AsyncTask}
    (hf : ∀ row, (f row).keys = row.keys) {α : Type} (g : Keys → α) :
    (rows.map f).map (fun row => g row.keys) = rows.map fun row => g row.keys := by
  rw [List.map_map]
  exact List.map_congr_left fun row _ => congrArg g (hf row)

/-- Change the rows, but no key of one. -/
def update (f : AsyncTask → AsyncTask) (hf : ∀ row, (f row).keys = row.keys) : Table where
  rows := tbl.rows.map f
  taskIds := (map_keys_update hf Keys.taskId).symm ▸ tbl.taskIds
  idempotency := (map_keys_update hf Keys.idempotency).symm ▸ tbl.idempotency

/-- What an operation of the DAO on the task of that id makes of a row. -/
def written (now : Time) (taskId : String) (op : DaoOp) (row : AsyncTask) : AsyncTask :=
  if row.taskId = taskId then (op.exec now row).2 else row

theorem written_keys (now : Time) (taskId : String) (op : DaoOp) (row : AsyncTask) :
    (written now taskId op row).keys = row.keys := by
  unfold written
  split
  · exact DaoOp.exec_keys
  · rfl

/-- An operation of the DAO on the task of that id: what its caller sees, and the table. -/
def exec (now : Time) (taskId : String) (op : DaoOp) : Except TransitionError Bool × Table :=
  (match tbl.get taskId with
    | some row => (op.exec now row).1
    | none => op.assertWhitelisted.map fun _ => false,
   tbl.update (written now taskId op) (written_keys now taskId op))

/-- `insert`: none where the task id, or the idempotency key with the bucket, is taken, which
raises `IntegrityError`. -/
def insert (row : AsyncTask) : Option Table :=
  if h : row.keys.taskId ∉ tbl.rows.map (·.keys.taskId) ∧
      row.keys.idempotency ∉ tbl.rows.map (·.keys.idempotency) then
    some ⟨row :: tbl.rows, List.nodup_cons.mpr ⟨h.1, tbl.taskIds⟩,
      List.nodup_cons.mpr ⟨h.2, tbl.idempotency⟩⟩
  else none

variable {tbl}

@[ext] theorem ext {tbl tbl' : Table} (h : tbl.rows = tbl'.rows) : tbl = tbl' := by
  cases tbl
  cases tbl'
  cases h
  rfl

/-- The row of a task id is the one row that has it. -/
theorem get_eq_some {taskId : String} {row : AsyncTask} :
    tbl.get taskId = some row ↔ row ∈ tbl.rows ∧ row.taskId = taskId := by
  refine ⟨fun h => ⟨List.mem_of_find?_eq_some h, by simpa using List.find?_some h⟩, ?_⟩
  rintro ⟨hm, rfl⟩
  obtain ⟨found, hf⟩ := Option.isSome_iff_exists.mp
    (List.find?_isSome (p := (·.taskId = row.taskId)) |>.mpr ⟨row, hm, by simp⟩)
  have he : found.taskId = row.taskId := by simpa using List.find?_some hf
  rw [get, hf, List.inj_on_of_nodup_map tbl.taskIds (List.mem_of_find?_eq_some hf) hm he]

/-- The row of an idempotency key and bucket is the one row that has them. -/
theorem findByIdempotency_eq_some {key : String} {bucket : ℤ} {row : AsyncTask} :
    tbl.findByIdempotency key bucket = some row ↔
      row ∈ tbl.rows ∧ row.keys.idempotency = (key, bucket) := by
  refine ⟨fun h => ⟨List.mem_of_find?_eq_some h, ?_⟩, ?_⟩
  · simpa [AsyncTask.keys] using List.find?_some h
  · rintro ⟨hm, hk⟩
    have hp : (row.idempotencyKey = key ∧ row.idempotencyBucket = bucket) := by
      simpa [AsyncTask.keys] using hk
    obtain ⟨found, hf⟩ := Option.isSome_iff_exists.mp
      (List.find?_isSome
        (p := fun row => row.idempotencyKey = key ∧ row.idempotencyBucket = bucket) |>.mpr
        ⟨row, hm, by simpa using hp⟩)
    have he : found.keys.idempotency = row.keys.idempotency := by
      rw [hk]
      simpa [AsyncTask.keys] using List.find?_some hf
    rw [findByIdempotency, hf,
      List.inj_on_of_nodup_map tbl.idempotency (List.mem_of_find?_eq_some hf) hm he]

theorem findByIdempotency_eq_none {key : String} {bucket : ℤ} :
    tbl.findByIdempotency key bucket = none ↔
      ∀ row ∈ tbl.rows, row.keys.idempotency ≠ (key, bucket) := by
  refine ⟨fun h row hm hk => ?_, fun h => ?_⟩
  · rw [findByIdempotency_eq_some.mpr ⟨hm, hk⟩] at h
    cases h
  · cases hf : tbl.findByIdempotency key bucket with
    | none => rfl
    | some row =>
        obtain ⟨hm, hk⟩ := findByIdempotency_eq_some.mp hf
        exact absurd hk (h row hm)

theorem insert_eq_some {row : AsyncTask} {tbl' : Table} :
    tbl.insert row = some tbl' ↔
      (∀ r ∈ tbl.rows, r.taskId ≠ row.taskId ∧ r.keys.idempotency ≠ row.keys.idempotency) ∧
        tbl'.rows = row :: tbl.rows := by
  unfold insert
  split
  · rename_i h
    simp only [List.mem_map, not_exists, not_and] at h
    constructor
    · intro he
      cases he
      exact ⟨fun r hr => ⟨h.1 r hr, h.2 r hr⟩, rfl⟩
    · rintro ⟨-, he⟩
      exact congrArg some (ext he.symm)
  · rename_i h
    constructor
    · intro he
      cases he
    · rintro ⟨hd, -⟩
      refine absurd ?_ h
      simp only [List.mem_map, not_exists, not_and]
      exact ⟨fun r hr => (hd r hr).1, fun r hr => (hd r hr).2⟩

/-- Where the insert fails, a row has the task id or the idempotency key already. -/
theorem insert_eq_none {row : AsyncTask} (h : tbl.insert row = none) :
    ∃ r ∈ tbl.rows, r.taskId = row.taskId ∨ r.keys.idempotency = row.keys.idempotency := by
  by_contra hn
  push Not at hn
  unfold insert at h
  split at h
  · cases h
  · rename_i hd
    refine hd ⟨?_, ?_⟩ <;> simp only [List.mem_map, not_exists, not_and]
    · exact fun r hr => (hn r hr).1
    · exact fun r hr => (hn r hr).2

/-- A row is inserted where its keys are free. -/
theorem exists_insert {row : AsyncTask} (h : ∀ r ∈ tbl.rows,
    r.taskId ≠ row.taskId ∧ r.keys.idempotency ≠ row.keys.idempotency) :
    ∃ tbl', tbl.insert row = some tbl' := by
  cases hi : tbl.insert row with
  | some tbl' => exact ⟨tbl', rfl⟩
  | none =>
      obtain ⟨r, hr, he⟩ := insert_eq_none hi
      exact absurd he (not_or.mpr (h r hr))

/-- After an operation on one task, the row of any task id is what the operation makes of it. -/
theorem get_exec {now : Time} {taskId : String} {op : DaoOp} (taskId' : String) :
    (tbl.exec now taskId op).2.get taskId' = (tbl.get taskId').map (written now taskId op) := by
  have hid : ∀ row, (written now taskId op row).taskId = row.taskId := fun row =>
    congrArg Keys.taskId (written_keys now taskId op row)
  simp only [exec, get, update, List.find?_map]
  congr 2
  funext row
  simp [hid]

theorem get_exec_self {now : Time} {op : DaoOp} {row : AsyncTask}
    (h : tbl.get row.taskId = some row) :
    (tbl.exec now row.taskId op).1 = (op.exec now row).1 ∧
      (tbl.exec now row.taskId op).2.get row.taskId = some (op.exec now row).2 := by
  refine ⟨by simp [exec, h], ?_⟩
  rw [get_exec, h]
  simp [written]

theorem get_exec_of_ne {now : Time} {taskId taskId' : String} {op : DaoOp}
    (hne : taskId' ≠ taskId) :
    (tbl.exec now taskId op).2.get taskId' = tbl.get taskId' := by
  rw [get_exec]
  cases h : tbl.get taskId' with
  | none => rfl
  | some row => simp [written, (get_eq_some.mp h).2, hne]

/-- `advance` from one status raises where the whitelist has no edge, whatever the row. -/
theorem exec_advance_error {now : Time} {taskId : String} {src dst : TaskStatus}
    {values : List Assign} (h : ¬ Edge src dst) :
    (tbl.exec now taskId (.advance dst (some [src]) values)).1 = .error ⟨src, dst⟩ := by
  have hc : canTransition src dst = false := by simpa [canTransition, Edge] using h
  have ha : assertTransitions dst [src] = .error ⟨src, dst⟩ := by
    simp [assertTransitions, assertTransition, hc, Except.bind]
  simp only [exec]
  split
  · simp [DaoOp.exec, DaoOp.run, advance, ha, bind, Except.bind]
  · simp [DaoOp.assertWhitelisted, ha, Except.map]

end Table

/-! ### Transactions -/

/-- What runs in a session: it reads and writes the table, and may raise. -/
abbrev Session (α : Type) := StateT Table (Except Exn) α

/-- `session_scope`: the table the body leaves is committed; where it raises, the table is rolled
back. -/
def sessionScope {α : Type} (body : Session α) (tbl : Table) : Except Exn α × Table :=
  match body tbl with
  | .ok (a, tbl') => (.ok a, tbl')
  | .error x => (.error x, tbl)

/-- An operation of the DAO in a session. -/
def Session.exec (now : Time) (taskId : String) (op : DaoOp) : Session Bool := fun tbl =>
  match tbl.exec now taskId op with
  | (.ok b, tbl') => .ok (b, tbl')
  | (.error x, _) => .error (.transitionError x)

end AsyncGateway
