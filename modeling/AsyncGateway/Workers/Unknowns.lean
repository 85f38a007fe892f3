import AsyncGateway.Workers.Inspector
import Mathlib.Data.List.Dedup
import Mathlib.Data.List.Sort

/-!
# Workers — bounding the tasks in doubt

`bound_unknowns` over the whole table: the tasks over the lifetime, and for each channel over its
limit some of its tasks, all in one list of victims (`Inspector.boundUnknowns`).  A channel stops
when the list is long enough, whoever stands in it, and the rows it chooses from are the due ones
of all channels, as many as the channel has.  `bounds_iff` says on which tables what is chosen is
what the limit asks for: where the counts of the channels come out even (`Balanced`) and the rows
that are due first are those in doubt for longest (`Ranked`).
-/

namespace AsyncGateway

open TaskStatus

namespace Inspector

/-- A pass: its two bounds, what it sees of the clock, and the orders the database lists in. -/
structure BoundPass where
  maxPerChannel : ℤ
  maxLifetime : Seconds
  /-- When the lifetimes are compared. -/
  now : Time
  /-- When the due rows are listed, by the channel the pass has come to. -/
  listing : String → Time
  /-- When a victim is moved, by its id. -/
  clock : String → Time
  groups : List String → List String
  groups_perm : ∀ channels, (groups channels).Perm channels
  listed : List AsyncTask → List AsyncTask
  listed_perm : ∀ rows, (listed rows).Perm rows
  /-- `ORDER BY next_poll_at`. -/
  ordered : List AsyncTask → List AsyncTask
  ordered_perm : ∀ rows, (ordered rows).Perm rows
  ordered_pairwise : ∀ rows,
    (ordered rows).Pairwise fun a b => a.nextPollAt.getD 0 ≤ b.nextPollAt.getD 0

variable (B : BoundPass) (tbl : Table)

/-- The rows of the two unknown states. -/
def unknowns : List AsyncTask :=
  tbl.rows.filter fun row => row.status ∈ [submitUnknown, pollUnrecognized]

/-- How many of them a channel has. -/
def unknownCount (channel : String) : ℕ := (unknowns tbl).countP (·.channel = channel)

/-- `count_unknown_by_channel`. -/
def countUnknownByChannel : List (String × ℕ) :=
  (B.groups ((unknowns tbl).map (·.channel)).dedup).map fun channel =>
    (channel, unknownCount tbl channel)

def overLifetime (task : AsyncTask) : Bool :=
  task.unknownSince.any fun t => decide (t ≤ B.now - B.maxLifetime)

/-- `over_lifetime_unknown`. -/
def overLifetimeUnknown : List AsyncTask :=
  (B.listed ((unknowns tbl).filter (overLifetime B))).take 200

/-- `unknown_tasks`. -/
def unknownTasks (limit : ℕ) (now : Time) : List AsyncTask :=
  (B.ordered ((unknowns tbl).filter fun task =>
    task.nextPollAt.any fun t => decide (t ≤ now))).take limit

/-- The loop over the listed rows: those of the channel become victims, until there are `stop`. -/
def choose (channel : String) (stop : ℤ) : List AsyncTask → List String → List String
  | [], victims => victims
  | task :: rows, victims =>
      if task.channel ≠ channel then choose channel stop rows victims
      else if stop ≤ (victims ++ [task.taskId]).length then victims ++ [task.taskId]
      else choose channel stop rows (victims ++ [task.taskId])

/-- The loop over the channels. -/
def chooseAll : List (String × ℕ) → List String → List String
  | [], victims => victims
  | (channel, count) :: counts, victims =>
      if (count : ℤ) ≤ B.maxPerChannel then chooseAll counts victims
      else chooseAll counts
        (choose channel (count - B.maxPerChannel + (overLifetimeUnknown B tbl).length)
          (unknownTasks B tbl count (B.listing channel)) victims)

def victims : List String :=
  chooseAll B tbl (countUnknownByChannel B tbl) ((overLifetimeUnknown B tbl).map (·.taskId))

/-- What the pass asks for a victim. -/
def confirmOp (task : AsyncTask) : DaoOp :=
  .advance deadAwaitingConfirm (some [task.status])
    [.errorCode (some .unknownExhausted),
      .errorMessage (some "unknown bounded: exceeded channel limit or max lifetime"),
      .nextPollAt none]

/-- The loop over the victims; how many were moved. -/
def confirm : List String → Session ℕ
  | [] => pure 0
  | taskId :: taskIds => do
      match (← get).get taskId with
      | none => confirm taskIds
      | some task =>
          let moved ← Session.exec (B.clock taskId) taskId (confirmOp task)
          let actions ← confirm taskIds
          pure (if moved then actions + 1 else actions)

/-- `bound_unknowns`. -/
def boundUnknowns : Table → Except Exn ℕ × Table :=
  sessionScope fun tbl => confirm B (victims B tbl).eraseDups tbl

/-! ### What the pass is for -/

/-- `a` is in doubt for longer than `b`, as far as both are dated. -/
def Older (a b : AsyncTask) : Prop :=
  ∃ s ∈ a.unknownSince, ∃ t ∈ b.unknownSince, s < t

/-- The chosen are the oldest of the rows, so many. -/
structure Oldest (rows chosen : List AsyncTask) (size : ℕ) : Prop where
  length : chosen.length = size
  older : ∀ a ∈ chosen, ∀ b ∈ rows, b ∉ chosen → ¬ Older b a

/-- The tasks of a channel that the lifetime leaves. -/
def remaining (channel : String) : List AsyncTask :=
  (unknowns tbl).filter fun task => decide (task.channel = channel) && !overLifetime B task

/-- By how many they are over the limit. -/
def excess (channel : String) : ℕ := ((remaining B tbl channel).length - B.maxPerChannel).toNat

/-- The task has come to `dead_awaiting_confirm`. -/
def moved (after : Table) (task : AsyncTask) : Bool :=
  decide (task.status ≠ deadAwaitingConfirm) &&
    (after.get task.taskId).any fun row => decide (row.status = deadAwaitingConfirm)

/-- The pass does what it is for. -/
structure Bounds (after : Table) : Prop where
  limit : ∀ channel, (unknownCount after channel : ℤ) ≤ B.maxPerChannel
  lifetime : ∀ task ∈ unknowns tbl, overLifetime B task → moved after task
  oldest : ∀ channel, Oldest (remaining B tbl channel)
    ((remaining B tbl channel).filter (moved after)) (excess B tbl channel)
  others : ∀ task ∈ tbl.rows, moved after task → task ∈ unknowns tbl
  spared : ∀ task ∈ unknowns tbl, (unknownCount tbl task.channel : ℤ) ≤ B.maxPerChannel →
    ¬ overLifetime B task → ¬ moved after task

/-! ### What each channel chooses -/

/-- The channels over the limit, in the order of the pass. -/
def overLimit : List String :=
  (B.groups ((unknowns tbl).map (·.channel)).dedup).filter fun channel =>
    decide (B.maxPerChannel < unknownCount tbl channel)

/-- The rows of a channel among those it is shown. -/
def shown (channel : String) : List AsyncTask :=
  (unknownTasks B tbl (unknownCount tbl channel) (B.listing channel)).filter
    (·.channel = channel)

/-- By how many a channel is over its limit, its tasks over the lifetime counted with the rest. -/
def surplus (channel : String) : ℕ := (unknownCount tbl channel - B.maxPerChannel).toNat

/-- How many a channel takes where others took `taken` before it. -/
def quota (taken : ℕ) (channel : String) : ℕ := max 1 (surplus B tbl channel - taken)

/-- The channels with their quotas, the first after `taken` were taken. -/
def quotas : ℕ → List String → List (String × ℕ)
  | _, [] => []
  | taken, channel :: channels =>
      (channel, quota B tbl taken channel) ::
        quotas (taken + min (quota B tbl taken channel) (shown B tbl channel).length) channels

/-- The turn of a channel. -/
def turn (channel : String) (size : ℕ) : List AsyncTask := (shown B tbl channel).take size

instance (a b : AsyncTask) : Decidable (Older a b) :=
  inferInstanceAs (Decidable (∃ s ∈ a.unknownSince, ∃ t ∈ b.unknownSince, s < t))

/-! ### When it does what it is for -/

/-- How many rows these channels take, each in its turn. -/
def spent (channels : List String) : ℕ :=
  channels.foldl
    (fun taken channel => taken + min (quota B tbl taken channel) (shown B tbl channel).length) 0

/-- The tasks of a channel over the lifetime. -/
def overdue (channel : String) : ℕ :=
  (unknowns tbl).countP fun task => decide (task.channel = channel) && overLifetime B task

/-- How many of them are not among the first rows the channel is shown. -/
def unseen (channel : String) (size : ℕ) : ℕ :=
  overdue B tbl channel - (turn B tbl channel size).countP (overLifetime B)

/-- The counts come out even: the rows in reach of the channel, with its tasks over the lifetime
that are out of reach, are as many as it is to lose. -/
def Balanced (channel : String) (taken : ℕ) : Prop :=
  min (quota B tbl taken channel) (shown B tbl channel).length +
      unseen B tbl channel (quota B tbl taken channel) =
    max (surplus B tbl channel) (overdue B tbl channel)

/-- Of the rows a channel is shown, the first that the lifetime leaves, as many as it has too
many. -/
def foremost (channel : String) : List AsyncTask :=
  ((shown B tbl channel).filter (!overLifetime B ·)).take (excess B tbl channel)

/-- What is in doubt for longer than one of them is one of them. -/
def Ranked (channel : String) : Prop :=
  ∀ a ∈ foremost B tbl channel, ∀ b ∈ remaining B tbl channel, Older b a →
    b ∈ foremost B tbl channel

/-- The tables the pass is fair on. -/
structure Orderly : Prop where
  nonneg : 0 ≤ B.maxPerChannel
  balanced : ∀ before channel after, overLimit B tbl = before ++ channel :: after →
    Balanced B tbl channel (spent B tbl before)
  ranked : ∀ channel ∈ overLimit B tbl, Ranked B tbl channel

variable {B tbl}

theorem choose_eq (channel : String) (stop : ℤ) (rows : List AsyncTask) (victims : List String) :
    choose channel stop rows victims =
      victims ++ ((rows.filter (·.channel = channel)).take
        (max 1 (stop - victims.length)).toNat).map (·.taskId) := by
  induction rows generalizing victims with
  | nil => simp [choose]
  | cons task rows ih =>
      unfold choose
      by_cases hchannel : task.channel = channel
      · obtain ⟨k, hk⟩ : ∃ k, (max 1 (stop - victims.length)).toNat = k + 1 :=
          ⟨(max 1 (stop - victims.length)).toNat - 1, by omega⟩
        rw [if_neg (by simp [hchannel]), List.filter_cons_of_pos (by simp [hchannel]), hk,
          List.take_succ_cons]
        split
        · rename_i hstop
          have hzero : k = 0 := by
            simp only [List.length_append, List.length_singleton] at hstop
            omega
          simp [hzero]
        · rename_i hstop
          have hrest : (max 1 (stop - (victims ++ [task.taskId]).length)).toNat = k := by
            simp only [List.length_append, List.length_singleton] at hstop ⊢
            omega
          rw [ih, hrest]
          simp
      · rw [if_pos hchannel, List.filter_cons_of_neg (by simp [hchannel]), ih]

/-- What the channels choose, one after the other. -/
theorem chooseAll_eq (channels : List String) (taken : ℕ) (victims : List String)
    (h : victims.length = (overLifetimeUnknown B tbl).length + taken) :
    chooseAll B tbl (channels.map fun channel => (channel, unknownCount tbl channel)) victims =
      victims ++ ((quotas B tbl taken (channels.filter fun channel =>
        decide (B.maxPerChannel < unknownCount tbl channel))).flatMap fun c =>
          (turn B tbl c.1 c.2).map (·.taskId)) := by
  induction channels generalizing taken victims with
  | nil => simp [chooseAll, quotas]
  | cons channel channels ih =>
      rw [List.map_cons, chooseAll]
      by_cases hover : B.maxPerChannel < unknownCount tbl channel
      · have hquota : (max 1 (unknownCount tbl channel - B.maxPerChannel +
            (overLifetimeUnknown B tbl).length - victims.length : ℤ)).toNat =
              quota B tbl taken channel := by
          unfold quota surplus
          omega
        rw [if_neg (by omega), choose_eq, hquota, List.filter_cons_of_pos (by simpa using hover),
          quotas, List.flatMap_cons, ← List.append_assoc]
        refine ih _ _ ?_
        simp only [List.length_append, List.length_map, List.length_take, h, shown]
        omega
      · rw [if_pos (by omega), List.filter_cons_of_neg (by simpa using hover)]
        exact ih taken victims h

/-- Who becomes a victim: the tasks over the lifetime, and the turns of the channels. -/
theorem mem_victims {taskId : String} : taskId ∈ victims B tbl ↔
    (∃ task ∈ overLifetimeUnknown B tbl, task.taskId = taskId) ∨
      ∃ c ∈ quotas B tbl 0 (overLimit B tbl), ∃ task ∈ turn B tbl c.1 c.2,
        task.taskId = taskId := by
  rw [victims, countUnknownByChannel, chooseAll_eq _ 0 _ (by simp)]
  simp [overLimit]

/-! ### What the pass does to the table -/

/-- A victim, as the pass leaves it. -/
def confirmed (B : BoundPass) (task : AsyncTask) : AsyncTask :=
  ((confirmOp task).exec (B.clock task.taskId) task).2

theorem exec_confirmOp {task : AsyncTask}
    (h : task.status ∈ [submitUnknown, pollUnrecognized]) :
    ((confirmOp task).exec (B.clock task.taskId) task).1 = .ok true ∧
      (confirmed B task).status = deadAwaitingConfirm := by
  have he : Edge task.status deadAwaitingConfirm := by
    revert h
    cases task.status <;> decide
  have ha : assertTransitions deadAwaitingConfirm [task.status] = .ok () :=
    assertTransitions_ok.mpr (by simpa using he)
  simp [confirmed, confirmOp, DaoOp.exec, DaoOp.run, advance, ha, bind, Except.bind, cas,
    List.foldl_append, Write.apply]

theorem confirmed_taskId (task : AsyncTask) : (confirmed B task).taskId = task.taskId :=
  congrArg Keys.taskId DaoOp.exec_keys

theorem confirm_cons (taskId : String) (taskIds : List String) :
    confirm B (taskId :: taskIds) tbl =
      match tbl.get taskId with
      | none => confirm B taskIds tbl
      | some task =>
          (Session.exec (B.clock taskId) taskId (confirmOp task) >>= fun moved =>
            confirm B taskIds >>= fun actions =>
              pure (if moved then actions + 1 else actions)) tbl := by
  change (match tbl.get taskId with
    | none => confirm B taskIds
    | some task => do
        let moved ← Session.exec (B.clock taskId) taskId (confirmOp task)
        let actions ← confirm B taskIds
        pure (if moved then actions + 1 else actions) : Session ℕ) tbl = _
  cases tbl.get taskId <;> rfl

/-- One victim is moved, and its row alone. -/
theorem exec_victim {task : AsyncTask} (hget : tbl.get task.taskId = some task)
    (h : task.status ∈ [submitUnknown, pollUnrecognized]) :
    ∃ tbl₁, tbl.exec (B.clock task.taskId) task.taskId (confirmOp task) = (.ok true, tbl₁) ∧
      tbl₁.rows = tbl.rows.map fun row =>
        if row.taskId = task.taskId then confirmed B row else row := by
  obtain ⟨hexec, -⟩ := exec_confirmOp (B := B) h
  refine ⟨_, Prod.ext ((Table.get_exec_self hget).1.trans hexec) rfl, ?_⟩
  refine List.map_congr_left fun row hrow => ?_
  unfold Table.written
  split
  · next he =>
      have hmem := (Table.get_eq_some.mp hget).1
      rw [List.inj_on_of_nodup_map tbl.taskIds hrow hmem he, confirmed]
  · rfl

/-- The pass moves the rows of the ids it is given, and no other. -/
theorem confirm_ok {taskIds : List String} (hnodup : taskIds.Nodup)
    (h : ∀ row ∈ tbl.rows, row.taskId ∈ taskIds →
      row.status ∈ [submitUnknown, pollUnrecognized]) :
    ∃ actions tbl', confirm B taskIds tbl = .ok (actions, tbl') ∧
      tbl'.rows = tbl.rows.map fun row =>
        if row.taskId ∈ taskIds then confirmed B row else row := by
  induction taskIds generalizing tbl with
  | nil => exact ⟨0, tbl, rfl, by simp⟩
  | cons taskId taskIds ih =>
      obtain ⟨hnew, hnodup'⟩ := List.nodup_cons.mp hnodup
      have hrest : ∀ row ∈ tbl.rows, row.taskId ∈ taskIds →
          row.status ∈ [submitUnknown, pollUnrecognized] :=
        fun row hrow hmem => h row hrow (List.mem_cons_of_mem _ hmem)
      rw [confirm_cons]
      cases hget : tbl.get taskId with
      | none =>
          have hid : ∀ row ∈ tbl.rows, row.taskId ≠ taskId := fun row hrow he => by
            rw [Table.get_eq_some.mpr ⟨hrow, he⟩] at hget
            cases hget
          obtain ⟨actions, tbl', hok, hrows⟩ := ih hnodup' hrest
          refine ⟨actions, tbl', hok, hrows.trans (List.map_congr_left fun row hrow => ?_)⟩
          simp [hid row hrow]
      | some task =>
          obtain ⟨hmem, rfl⟩ := Table.get_eq_some.mp hget
          obtain ⟨tbl₁, hstep, hrows₁⟩ := exec_victim (B := B) hget (h task hmem List.mem_cons_self)
          -- the row that was moved is not among those that are left to move
          have hrest₁ : ∀ row ∈ tbl₁.rows, row.taskId ∈ taskIds →
              row.status ∈ [submitUnknown, pollUnrecognized] := by
            rw [hrows₁]
            intro row₁ hrow₁ hmem₁
            obtain ⟨row, hrow, rfl⟩ := List.mem_map.mp hrow₁
            by_cases he : row.taskId = task.taskId
            · rw [if_pos he, confirmed_taskId, he] at hmem₁
              exact absurd hmem₁ hnew
            · rw [if_neg he] at hmem₁ ⊢
              exact hrest row hrow hmem₁
          obtain ⟨actions, tbl', hok, hrows⟩ := ih hnodup' hrest₁
          refine ⟨actions + 1, tbl', ?_, ?_⟩
          · simp only [Session.exec, bind, StateT.bind, Except.bind, hstep, hok]
            rfl
          · rw [hrows, hrows₁, List.map_map]
            refine List.map_congr_left fun row _ => ?_
            by_cases he : row.taskId = task.taskId
            · simp [he, confirmed_taskId, hnew]
            · simp [he]

/-- `dict.fromkeys` names no key twice. -/
theorem nodup_eraseDups : ∀ taskIds : List String, taskIds.eraseDups.Nodup
  | [] => by simp
  | taskId :: taskIds => by
      rw [List.eraseDups_cons, List.nodup_cons]
      refine ⟨by simp, nodup_eraseDups _⟩
  termination_by taskIds => taskIds.length
  decreasing_by
    have := List.length_filter_le (fun b => !b == taskId) taskIds
    simp only [List.length_cons]
    omega

theorem mem_unknowns {task : AsyncTask} : task ∈ unknowns tbl ↔
    task ∈ tbl.rows ∧ task.status ∈ [submitUnknown, pollUnrecognized] := by
  simp [unknowns]

/-- The victims are tasks in doubt. -/
theorem unknown_of_victim {task : AsyncTask} (hrow : task ∈ tbl.rows)
    (h : task.taskId ∈ victims B tbl) : task ∈ unknowns tbl := by
  have hone : ∀ other ∈ unknowns tbl, other.taskId = task.taskId → task ∈ unknowns tbl :=
    fun other hother he => by
      rwa [← List.inj_on_of_nodup_map tbl.taskIds (mem_unknowns.mp hother).1 hrow he]
  rcases mem_victims.mp h with ⟨other, hother, he⟩ | ⟨c, -, other, hother, he⟩
  · have hlisted := (B.listed_perm _).mem_iff.mp (List.mem_of_mem_take hother)
    exact hone other (List.mem_filter.mp hlisted).1 he
  · have hshown := List.mem_of_mem_take (List.mem_filter.mp (List.mem_of_mem_take hother)).1
    exact hone other (List.mem_filter.mp ((B.ordered_perm _).mem_iff.mp hshown)).1 he

/-- **The pass ends, moves the victims, and leaves every other row as it is.** -/
theorem rows_boundUnknowns (B : BoundPass) (tbl : Table) :
    (∃ actions, (boundUnknowns B tbl).1 = .ok actions) ∧
      (boundUnknowns B tbl).2.rows = tbl.rows.map fun row =>
        if row.taskId ∈ victims B tbl then confirmed B row else row := by
  have hunknown : ∀ row ∈ tbl.rows, row.taskId ∈ (victims B tbl).eraseDups →
      row.status ∈ [submitUnknown, pollUnrecognized] := fun row hrow hmem =>
    (mem_unknowns.mp (unknown_of_victim hrow (List.mem_eraseDups.mp hmem))).2
  obtain ⟨actions, tbl', hok, hrows⟩ := confirm_ok (B := B) (nodup_eraseDups _) hunknown
  simp only [List.mem_eraseDups] at hrows
  have hpass : boundUnknowns B tbl = (.ok actions, tbl') := by
    simp only [boundUnknowns, sessionScope, hok]
  rw [hpass]
  exact ⟨⟨actions, rfl⟩, hrows⟩

/-! ### Who is moved -/

theorem nodup_unknowns : (unknowns tbl).Nodup :=
  (List.Nodup.of_map _ tbl.taskIds).filter _

/-- The one row of a task id. -/
theorem eq_of_taskId {task other : AsyncTask} (h : task ∈ tbl.rows) (h' : other ∈ tbl.rows)
    (he : task.taskId = other.taskId) : task = other :=
  List.inj_on_of_nodup_map tbl.taskIds h h' he

theorem moved_iff {task : AsyncTask} (h : task ∈ tbl.rows) :
    moved (boundUnknowns B tbl).2 task = true ↔ task.taskId ∈ victims B tbl := by
  obtain ⟨-, hrows⟩ := rows_boundUnknowns B tbl
  have hget : (boundUnknowns B tbl).2.get task.taskId =
      some (if task.taskId ∈ victims B tbl then confirmed B task else task) := by
    refine Table.get_eq_some.mpr ⟨hrows ▸ List.mem_map.mpr ⟨task, h, rfl⟩, ?_⟩
    split
    · exact confirmed_taskId task
    · rfl
  by_cases hv : task.taskId ∈ victims B tbl
  · have hstatus := (mem_unknowns.mp (unknown_of_victim h hv)).2
    have hne : task.status ≠ deadAwaitingConfirm := fun he => by simp [he] at hstatus
    simp [moved, hget, hv, hne, (exec_confirmOp (B := B) hstatus).2]
  · simp [moved, hget, hv]

theorem mem_remaining {channel : String} {task : AsyncTask} : task ∈ remaining B tbl channel ↔
    task ∈ unknowns tbl ∧ task.channel = channel ∧ overLifetime B task = false := by
  simp [remaining]

/-- A task of a channel is over the lifetime or remains. -/
theorem length_remaining_add_overdue (B : BoundPass) (tbl : Table) (channel : String) :
    (remaining B tbl channel).length + overdue B tbl channel = unknownCount tbl channel := by
  rw [overdue, remaining, unknownCount, ← List.countP_eq_length_filter]
  induction unknowns tbl with
  | nil => rfl
  | cons task rows ih =>
      rw [List.countP_cons, List.countP_cons, List.countP_cons, ← ih]
      by_cases hchannel : task.channel = channel <;> cases hlife : overLifetime B task <;>
        simp [hchannel] <;> omega

theorem nodup_remaining (channel : String) : (remaining B tbl channel).Nodup :=
  nodup_unknowns.filter _

theorem mem_turn {channel : String} {size : ℕ} {task : AsyncTask}
    (h : task ∈ turn B tbl channel size) : task ∈ unknowns tbl ∧ task.channel = channel := by
  obtain ⟨hshown, hchannel⟩ := List.mem_filter.mp (List.mem_of_mem_take h)
  have hdue := (B.ordered_perm _).mem_iff.mp (List.mem_of_mem_take hshown)
  exact ⟨(List.mem_filter.mp hdue).1, by simpa using hchannel⟩

theorem nodup_turn (channel : String) (size : ℕ) : (turn B tbl channel size).Nodup := by
  have hdue : (B.ordered ((unknowns tbl).filter fun task =>
      task.nextPollAt.any fun t => decide (t ≤ B.listing channel))).Nodup :=
    (B.ordered_perm _).nodup_iff.mpr (nodup_unknowns.filter _)
  exact ((hdue.sublist (List.take_sublist _ _)).filter _).sublist (List.take_sublist _ _)

theorem quotas_fst (B : BoundPass) (tbl : Table) (taken : ℕ) (channels : List String) :
    (quotas B tbl taken channels).map Prod.fst = channels := by
  induction channels generalizing taken with
  | nil => rfl
  | cons channel channels ih => simp [quotas, ih]

/-- The quota of a channel is counted after what the channels before it took. -/
theorem mem_quotas (B : BoundPass) (tbl : Table) {c : String × ℕ} {channels : List String} :
    c ∈ quotas B tbl 0 channels ↔ ∃ before channel after,
      channels = before ++ channel :: after ∧
        c = (channel, quota B tbl (spent B tbl before) channel) := by
  unfold spent
  generalize 0 = taken
  induction channels generalizing taken with
  | nil => simp [quotas]
  | cons first channels ih =>
      rw [quotas, List.mem_cons, ih]
      constructor
      · rintro (rfl | ⟨before, channel, after, rfl, rfl⟩)
        · exact ⟨[], first, channels, rfl, rfl⟩
        · exact ⟨first :: before, channel, after, rfl, rfl⟩
      · rintro ⟨_ | ⟨other, before⟩, channel, after, he, rfl⟩
        · cases he
          exact .inl rfl
        · cases he
          exact .inr ⟨before, channel, after, rfl, rfl⟩

theorem nodup_overLimit : (overLimit B tbl).Nodup :=
  ((B.groups_perm _).nodup_iff.mpr (List.nodup_dedup _)).filter _

theorem mem_overLimit {channel : String} : channel ∈ overLimit B tbl ↔
    (∃ task ∈ unknowns tbl, task.channel = channel) ∧
      B.maxPerChannel < unknownCount tbl channel := by
  simp [overLimit, (B.groups_perm _).mem_iff, List.mem_dedup]

/-- A task that the lifetime leaves becomes a victim in the turn of its channel. -/
theorem victim_iff {task : AsyncTask} (h : task ∈ unknowns tbl)
    (hlife : overLifetime B task = false) : task.taskId ∈ victims B tbl ↔
      ∃ size, (task.channel, size) ∈ quotas B tbl 0 (overLimit B tbl) ∧
        task ∈ turn B tbl task.channel size := by
  rw [mem_victims]
  constructor
  · rintro (⟨other, hother, he⟩ | ⟨⟨channel, size⟩, hc, other, hother, he⟩)
    · have hlisted := List.mem_filter.mp
        ((B.listed_perm _).mem_iff.mp (List.mem_of_mem_take hother))
      cases eq_of_taskId (mem_unknowns.mp hlisted.1).1 (mem_unknowns.mp h).1 he
      exact absurd (hlife.symm.trans hlisted.2) Bool.false_ne_true
    · obtain ⟨hunknown, hchannel⟩ := mem_turn hother
      cases eq_of_taskId (mem_unknowns.mp hunknown).1 (mem_unknowns.mp h).1 he
      cases hchannel
      exact ⟨size, hc, hother⟩
  · rintro ⟨size, hc, hmem⟩
    exact .inr ⟨_, hc, task, hmem, rfl⟩

/-- Beside the tasks over the lifetime, a channel loses what its turn takes. -/
theorem remaining_moved {channel : String} {size : ℕ}
    (h : (channel, size) ∈ quotas B tbl 0 (overLimit B tbl)) :
    ((remaining B tbl channel).filter (moved (boundUnknowns B tbl).2)).Perm
      ((turn B tbl channel size).filter (!overLifetime B ·)) := by
  rw [List.perm_ext_iff_of_nodup ((nodup_remaining channel).filter _)
    ((nodup_turn channel size).filter _)]
  intro task
  have hfst : ((quotas B tbl 0 (overLimit B tbl)).map Prod.fst).Nodup := by
    rw [quotas_fst]
    exact nodup_overLimit
  rw [List.mem_filter, mem_remaining, List.mem_filter]
  constructor
  · rintro ⟨⟨hunknown, rfl, hlife⟩, hmoved⟩
    obtain ⟨size', hc, hmem⟩ := (victim_iff hunknown hlife).mp
      ((moved_iff (mem_unknowns.mp hunknown).1).mp hmoved)
    cases List.inj_on_of_nodup_map hfst hc h rfl
    exact ⟨hmem, by simp [hlife]⟩
  · rintro ⟨hmem, hlife⟩
    obtain ⟨hunknown, rfl⟩ := mem_turn hmem
    have hlife' : overLifetime B task = false := by simpa using hlife
    exact ⟨⟨hunknown, rfl, hlife'⟩, (moved_iff (mem_unknowns.mp hunknown).1).mpr
      ((victim_iff hunknown hlife').mpr ⟨size, h, hmem⟩)⟩

theorem Oldest.perm {rows chosen chosen' : List AsyncTask} {size : ℕ}
    (h : Oldest rows chosen size) (hp : chosen.Perm chosen') : Oldest rows chosen' size :=
  ⟨hp.length_eq ▸ h.length, fun a ha b hb hn =>
    h.older a (hp.mem_iff.mpr ha) b hb fun hb' => hn (hp.mem_iff.mp hb')⟩

/-- With fewer rows than the limit of the query, every task over the lifetime is a victim. -/
theorem victim_of_overLifetime (hlimit : ((unknowns tbl).filter (overLifetime B)).length ≤ 200)
    {task : AsyncTask} (h : task ∈ unknowns tbl) (hlife : overLifetime B task = true) :
    task.taskId ∈ victims B tbl := by
  refine mem_victims.mpr (.inl ⟨task, ?_, rfl⟩)
  rw [overLifetimeUnknown, List.take_of_length_le ((B.listed_perm _).length_eq.trans_le hlimit),
    (B.listed_perm _).mem_iff]
  exact List.mem_filter.mpr ⟨h, hlife⟩

/-- What the pass leaves a channel: of the tasks the lifetime leaves those it does not move. -/
theorem unknownCount_boundUnknowns
    (hlimit : ((unknowns tbl).filter (overLifetime B)).length ≤ 200) (channel : String) :
    unknownCount (boundUnknowns B tbl).2 channel + ((remaining B tbl channel).filter
      (moved (boundUnknowns B tbl).2)).length = (remaining B tbl channel).length := by
  obtain ⟨-, hrows⟩ := rows_boundUnknowns B tbl
  have hcount : unknownCount (boundUnknowns B tbl).2 channel =
      (remaining B tbl channel).countP fun task => !moved (boundUnknowns B tbl).2 task := by
    rw [unknownCount, unknowns, hrows, List.countP_filter, List.countP_map, remaining, unknowns,
      List.filter_filter, List.countP_filter]
    refine List.countP_congr fun task htask => ?_
    have hmoved := moved_iff (B := B) htask
    by_cases hv : task.taskId ∈ victims B tbl
    · have hunknown := unknown_of_victim htask hv
      have hdead := (exec_confirmOp (B := B) (mem_unknowns.mp hunknown).2).2
      simp [hv, hdead, hmoved.mpr hv]
    · have hstays : moved (boundUnknowns B tbl).2 task = false := by
        simpa [hv] using hmoved
      by_cases hunknown : task ∈ unknowns tbl
      · have hlife : overLifetime B task = false := by
          by_contra hlife
          exact hv (victim_of_overLifetime hlimit hunknown (by simpa using hlife))
        simp [hv, hstays, hlife]
      · have hstatus : ¬ (task.status = submitUnknown ∨ task.status = pollUnrecognized) := by
          simpa [mem_unknowns, htask] using hunknown
        simp [hv, hstatus]
  rw [hcount, ← List.countP_eq_length_filter, add_comm,
    List.length_eq_countP_add_countP (moved (boundUnknowns B tbl).2)]
  simp

/-- In a channel within the limit, only the lifetime of a task is a reason to move it. -/
theorem not_moved_of_within {task : AsyncTask} (htask : task ∈ unknowns tbl)
    (hcount : (unknownCount tbl task.channel : ℤ) ≤ B.maxPerChannel)
    (hlife : ¬ overLifetime B task) : ¬ moved (boundUnknowns B tbl).2 task := by
  intro hmoved
  obtain ⟨size, hc, -⟩ := (victim_iff htask (by simpa using hlife)).mp
    ((moved_iff (mem_unknowns.mp htask).1).mp hmoved)
  have hover : task.channel ∈ overLimit B tbl := by
    rw [← quotas_fst B tbl 0 (overLimit B tbl)]
    exact List.mem_map.mpr ⟨_, hc, rfl⟩
  exact absurd (mem_overLimit.mp hover).2 (not_lt.mpr hcount)

/-! ### When a turn is right -/

/-- The first rows that pass a test are among the first of those that pass it. -/
theorem filter_take_eq {p : AsyncTask → Bool} (rows : List AsyncTask) (size : ℕ) :
    (rows.take size).filter p = (rows.filter p).take ((rows.take size).filter p).length :=
  List.prefix_iff_eq_take.mp ((List.take_prefix size rows).filter p)

theorem mem_foremost {channel : String} {task : AsyncTask} (h : task ∈ foremost B tbl channel) :
    task ∈ unknowns tbl := by
  have hshown := (List.mem_filter.mp (List.mem_of_mem_take h)).1
  rw [← List.take_length (l := shown B tbl channel)] at hshown
  exact (mem_turn hshown).1

/-- The foremost rows are known by their ids. -/
theorem ranked_iff {channel : String} : Ranked B tbl channel ↔
    ∀ a ∈ foremost B tbl channel, ∀ b ∈ remaining B tbl channel, Older b a →
      b.taskId ∈ (foremost B tbl channel).map (·.taskId) := by
  refine forall₂_congr fun a _ => forall₂_congr fun b hb => imp_congr_right fun _ => ?_
  refine ⟨List.mem_map_of_mem, fun h => ?_⟩
  obtain ⟨task, hmem, he⟩ := List.mem_map.mp h
  have hrow := (mem_unknowns.mp (mem_foremost hmem)).1
  rwa [← eq_of_taskId hrow (mem_unknowns.mp (mem_remaining.mp hb).1).1 he]

instance (channel : String) : Decidable (Ranked B tbl channel) :=
  decidable_of_iff _ ranked_iff.symm

/-- A turn takes no more tasks over the lifetime than the channel has. -/
theorem countP_turn_le (channel : String) (size : ℕ) :
    (turn B tbl channel size).countP (overLifetime B) ≤ overdue B tbl channel := by
  rw [overdue, List.countP_eq_length_filter, List.countP_eq_length_filter]
  refine (List.subperm_of_subset ((nodup_turn channel size).filter _)
    fun task htask => ?_).length_le
  obtain ⟨hmem, hlife⟩ := List.mem_filter.mp htask
  obtain ⟨hunknown, hchannel⟩ := mem_turn hmem
  exact List.mem_filter.mpr ⟨hunknown, by simp [hchannel, hlife]⟩

/-- A turn takes as many of the remaining tasks as it should where the counts come out even. -/
theorem balanced_iff {channel : String} (hover : channel ∈ overLimit B tbl) (taken : ℕ) :
    Balanced B tbl channel taken ↔
      ((turn B tbl channel (quota B tbl taken channel)).filter (!overLifetime B ·)).length =
        excess B tbl channel := by
  have hlimit := (mem_overLimit.mp hover).2
  have hrest := length_remaining_add_overdue B tbl channel
  have hseen : (turn B tbl channel (quota B tbl taken channel)).countP (overLifetime B) ≤
      overdue B tbl channel := countP_turn_le channel _
  have hturn : (turn B tbl channel (quota B tbl taken channel)).length =
      min (quota B tbl taken channel) (shown B tbl channel).length := List.length_take
  have hsplit := List.length_eq_countP_add_countP (overLifetime B)
    (l := turn B tbl channel (quota B tbl taken channel))
  have hwithin : (turn B tbl channel (quota B tbl taken channel)).countP
      (fun task => decide ¬ overLifetime B task = true) =
        ((turn B tbl channel (quota B tbl taken channel)).filter (!overLifetime B ·)).length := by
    rw [List.countP_eq_length_filter]
    simp
  unfold Balanced unseen surplus excess
  omega

/-- A turn is right where the counts come out even and the rows stand in the right order. -/
theorem oldest_turn_iff {channel : String} (hover : channel ∈ overLimit B tbl) (taken : ℕ) :
    Oldest (remaining B tbl channel)
        ((turn B tbl channel (quota B tbl taken channel)).filter (!overLifetime B ·))
        (excess B tbl channel) ↔
      Balanced B tbl channel taken ∧ Ranked B tbl channel := by
  rw [balanced_iff hover]
  have hforemost : ((turn B tbl channel (quota B tbl taken channel)).filter
      (!overLifetime B ·)).length = excess B tbl channel →
        (turn B tbl channel (quota B tbl taken channel)).filter (!overLifetime B ·) =
          foremost B tbl channel := fun hlength => by
    rw [foremost, ← hlength]
    exact filter_take_eq _ _
  constructor
  · intro h
    refine ⟨h.length, fun a ha b hb hold => ?_⟩
    rw [← hforemost h.length] at ha ⊢
    by_contra hnot
    exact h.older a ha b hb hnot hold
  · rintro ⟨hlength, hranked⟩
    refine ⟨hlength, fun a ha b hb hnot hold => hnot ?_⟩
    rw [hforemost hlength] at ha ⊢
    exact hranked a ha b hb hold

/-- On an orderly table the tasks moved for the limit are the oldest of their channel, and as many
as it has too many. -/
theorem Orderly.oldest_moved (h : Orderly B tbl) (channel : String) :
    Oldest (remaining B tbl channel)
      ((remaining B tbl channel).filter (moved (boundUnknowns B tbl).2))
      (excess B tbl channel) := by
  by_cases hover : channel ∈ overLimit B tbl
  · obtain ⟨before, after, hsplit⟩ := List.append_of_mem hover
    have hc := (mem_quotas B tbl).mpr ⟨before, channel, after, hsplit, rfl⟩
    have hturn := (oldest_turn_iff hover _).mpr
      ⟨h.balanced before channel after hsplit, h.ranked channel hover⟩
    exact hturn.perm (remaining_moved hc).symm
  · -- a channel within the limit has none too many, and loses none
    have hwithin : ∀ task ∈ unknowns tbl, task.channel = channel →
        (unknownCount tbl channel : ℤ) ≤ B.maxPerChannel := fun task htask he =>
      not_lt.mp fun hlt => hover (mem_overLimit.mpr ⟨⟨task, htask, he⟩, hlt⟩)
    have hnone : (remaining B tbl channel).filter (moved (boundUnknowns B tbl).2) = [] := by
      refine List.filter_eq_nil_iff.mpr fun task htask => ?_
      obtain ⟨hunknown, rfl, hlife⟩ := mem_remaining.mp htask
      exact not_moved_of_within hunknown (hwithin task hunknown rfl) (by simp [hlife])
    have hexcess : excess B tbl channel = 0 := by
      have hnonneg := h.nonneg
      have hle := length_remaining_add_overdue B tbl channel
      rcases hrest : remaining B tbl channel with _ | ⟨task, rest⟩
      · simp [excess, hrest, hnonneg]
      · obtain ⟨hunknown, he, -⟩ := mem_remaining.mp (hrest ▸ List.mem_cons_self)
        have hcount := hwithin task hunknown he
        unfold excess
        omega
    rw [hnone, hexcess]
    exact ⟨rfl, fun a ha => absurd ha List.not_mem_nil⟩

/-- **The pass leaves every channel within its limit, fairly, exactly on the orderly tables.** -/
theorem bounds_iff (B : BoundPass) (tbl : Table)
    (hlimit : ((unknowns tbl).filter (overLifetime B)).length ≤ 200) :
    Bounds B tbl (boundUnknowns B tbl).2 ↔ Orderly B tbl := by
  constructor
  · intro h
    have hright : ∀ before channel after, overLimit B tbl = before ++ channel :: after →
        Balanced B tbl channel (spent B tbl before) ∧ Ranked B tbl channel :=
      fun before channel after hsplit => by
        have hover : channel ∈ overLimit B tbl := by simp [hsplit]
        have hc := (mem_quotas B tbl).mpr ⟨before, channel, after, hsplit, rfl⟩
        exact (oldest_turn_iff hover _).mp ((h.oldest channel).perm (remaining_moved hc))
    refine ⟨(Int.natCast_nonneg _).trans (h.limit ""), fun before channel after hsplit =>
      (hright before channel after hsplit).1, fun channel hover => ?_⟩
    obtain ⟨before, after, hsplit⟩ := List.append_of_mem hover
    exact (hright before channel after hsplit).2
  · intro h
    refine ⟨fun channel => ?_, fun task htask hlife => ?_, h.oldest_moved,
      fun task htask hmoved => ?_, fun task => not_moved_of_within⟩
    · have hleft := unknownCount_boundUnknowns hlimit channel
      rw [(h.oldest_moved channel).length, excess] at hleft
      have hnonneg := h.nonneg
      omega
    · exact (moved_iff (mem_unknowns.mp htask).1).mpr
        (victim_of_overLifetime hlimit htask hlife)
    · exact unknown_of_victim htask ((moved_iff htask).mp hmoved)

/-! ### Where no task is over the lifetime -/

theorem le_spent (B : BoundPass) (tbl : Table) (taken : ℕ) (channels : List String) :
    taken ≤ channels.foldl (fun taken channel =>
      taken + min (quota B tbl taken channel) (shown B tbl channel).length) taken := by
  induction channels generalizing taken with
  | nil => exact le_rfl
  | cons channel channels ih => exact (Nat.le_add_right _ _).trans (ih _)

section WithinLifetime

variable (hlife : ∀ task ∈ unknowns tbl, overLifetime B task = false)
include hlife

theorem overdue_eq_zero (channel : String) : overdue B tbl channel = 0 :=
  List.countP_eq_zero.mpr fun task htask => by simp [hlife task htask]

/-- Then a channel is to be shown as many rows as it has too many, and may take them. -/
theorem balanced_iff_of_within {channel : String} (hover : channel ∈ overLimit B tbl)
    (taken : ℕ) : Balanced B tbl channel taken ↔
      surplus B tbl channel ≤ (shown B tbl channel).length ∧
        (taken = 0 ∨ surplus B tbl channel = 1) := by
  have hnone := overdue_eq_zero hlife channel
  have hlimit := (mem_overLimit.mp hover).2
  unfold Balanced unseen quota
  rw [hnone]
  unfold surplus
  omega

/-- **Where no task is over the lifetime**, the first channel over its limit may be so by any
number, every other by one only; each has to be shown as many rows as it has too many, and they are
to be its oldest. -/
theorem orderly_iff {first : String} {channels : List String}
    (hover : overLimit B tbl = first :: channels) :
    Orderly B tbl ↔ 0 ≤ B.maxPerChannel ∧
      (∀ channel ∈ channels, surplus B tbl channel = 1) ∧
      ∀ channel ∈ first :: channels,
        surplus B tbl channel ≤ (shown B tbl channel).length ∧ Ranked B tbl channel := by
  have hmem : ∀ channel ∈ first :: channels, channel ∈ overLimit B tbl := fun channel h =>
    hover ▸ h
  constructor
  · intro h
    have hbalanced : ∀ channel ∈ overLimit B tbl,
        surplus B tbl channel ≤ (shown B tbl channel).length := fun channel hc => by
      obtain ⟨before, after, hsplit⟩ := List.append_of_mem hc
      exact ((balanced_iff_of_within hlife hc _).mp (h.balanced _ _ _ hsplit)).1
    refine ⟨h.nonneg, fun channel hc => ?_, fun channel hc =>
      ⟨hbalanced channel (hmem channel hc), h.ranked channel (hmem channel hc)⟩⟩
    -- the first channel took at least one row
    obtain ⟨before, after, rfl⟩ := List.append_of_mem hc
    have hin := hmem channel (List.mem_cons_of_mem _ hc)
    have hfirst := hmem first List.mem_cons_self
    have htook : 1 ≤ spent B tbl (first :: before) := by
      have hle := le_spent B tbl
        (0 + min (quota B tbl 0 first) (shown B tbl first).length) before
      have hshown := hbalanced first hfirst
      have hlimit := (mem_overLimit.mp hfirst).2
      unfold spent
      rw [List.foldl_cons]
      unfold quota surplus at *
      omega
    rcases ((balanced_iff_of_within hlife hin _).mp
      (h.balanced (first :: before) channel after hover)).2 with hzero | hone
    · omega
    · exact hone
  · rintro ⟨hnonneg, hone, hshown⟩
    refine ⟨hnonneg, fun before channel after hsplit => ?_, fun channel hc =>
      (hshown channel (hover ▸ hc)).2⟩
    have hin : channel ∈ overLimit B tbl := by simp [hsplit]
    refine (balanced_iff_of_within hlife hin _).mpr ⟨(hshown channel (hover ▸ hin)).1, ?_⟩
    cases before with
    | nil => exact .inl rfl
    | cons other before =>
        rw [hover, List.cons_append, List.cons.injEq] at hsplit
        exact .inr (hone channel (by simp [hsplit.2]))

end WithinLifetime

/-! ### Two channels over the limit -/

/-- A task in doubt, due for long. -/
def doubtful (taskId channel : String) (unknownSince nextPollAt : Time) : AsyncTask :=
  { sampleRow with taskId := taskId, idempotencyKey := taskId, channel := channel,
                   status := submitUnknown, unknownSince := some unknownSince,
                   nextPollAt := some nextPollAt }

def dueFirst : AsyncTask → AsyncTask → Prop := fun a b =>
  a.nextPollAt.getD 0 ≤ b.nextPollAt.getD 0

instance : DecidableRel dueFirst := fun a b =>
  inferInstanceAs (Decidable (a.nextPollAt.getD 0 ≤ b.nextPollAt.getD 0))

instance : Std.Total dueFirst := ⟨fun _ _ => le_total _ _⟩

instance : IsTrans AsyncTask dueFirst := ⟨fun _ _ _ => le_trans⟩

/-- One task for each channel, and an hour. -/
def sampleBound : BoundPass where
  maxPerChannel := 1
  maxLifetime := 3600
  now := 60
  listing := fun _ => 60
  clock := fun _ => 60
  groups := id
  groups_perm := fun _ => .refl _
  listed := id
  listed_perm := fun _ => .refl _
  ordered := List.insertionSort dueFirst
  ordered_perm := List.perm_insertionSort dueFirst
  ordered_pairwise := List.pairwise_insertionSort dueFirst

/-- Three tasks of one channel. -/
def oneChannel : Table :=
  ⟨[doubtful "a3" "a" 3 6, doubtful "a1" "a" 1 4, doubtful "a2" "a" 2 5], by decide, by decide⟩

/-- Two tasks in each of two channels. -/
def crowdedTable : Table :=
  ⟨[doubtful "a1" "a" 0 0, doubtful "a2" "a" 0 1, doubtful "b1" "b" 0 2, doubtful "b2" "b" 0 3],
    by decide, by decide⟩

/-- One channel over its limit loses its oldest. -/
theorem bounds_oneChannel :
    Bounds sampleBound oneChannel (boundUnknowns sampleBound oneChannel).2 := by
  have hlife : ∀ task ∈ unknowns oneChannel, overLifetime sampleBound task = false := by
    decide +kernel
  have hover : overLimit sampleBound oneChannel = ["a"] := by decide
  refine (bounds_iff sampleBound oneChannel (by decide +kernel)).mpr
    ((orderly_iff hlife hover).mpr ⟨by decide, by simp, fun channel hc => ?_⟩)
  cases List.mem_singleton.mp hc
  exact ⟨by decide +kernel, by decide +kernel⟩

/-- Of the rows shown to the second channel none is its own: it stays over its limit. -/
theorem crowded_unbounded :
    ¬ Bounds sampleBound crowdedTable (boundUnknowns sampleBound crowdedTable).2 := by
  intro h
  exact absurd (h.limit "b") (by decide +kernel)

end Inspector

end AsyncGateway
