import AsyncGateway.Workers.Calibration

/-!
# System — the slots of all workers

The limiter, the database, the workers that hold slots, and the inspector that counted the active
tasks some time ago (`World`): any number of workers take and give back slots, the database goes on
as it likes but for the tasks that hold one, and the inspector lowers the counters to what it
counted.  The limits hold as long as no calibration lowers a counter under the slots that are held
(`within_limits`); an old count does (`overrun`).
-/

namespace AsyncGateway.Slots

open Interleave Limiter

/-- A slot that a worker holds: for this task, under the keys of its channel and its tenant. -/
structure Slot where
  taskId : String
  channel : String
  tenant : String
  deriving DecidableEq

def slotOf (row : AsyncTask) : Slot := ⟨row.taskId, row.channel, row.tenant⟩

structure World where
  counters : Counters
  table : Table
  /-- The slots granted and not given back. -/
  live : List Slot
  /-- What is left of the counts the inspector goes through. -/
  counted : List (String × ℕ)

inductive Act : Type where
  /-- The database goes on: tasks are accepted, advanced, and end. -/
  | write (table : Table)
  /-- A worker asks for a slot for an active task. -/
  | acquire (taskId : String)
  | release (slot : Slot)
  /-- The inspector counts the active tasks. -/
  | count
  /-- It calibrates the next channel. -/
  | calibrate

variable (redisReady : Bool) (limits : String → ℤ × ℤ)

/-- One step: a task that holds a slot stays active in the database, in its channel and tenant. -/
def step (w : World) : Act → Option World
  | .write table =>
      if w.live ⊆ table.active.map slotOf then some { w with table := table } else none
  | .acquire taskId =>
      (w.table.active.find? (·.taskId = taskId)).map fun row =>
        let limit := limits row.channel
        let answer := limiterOf redisReady (.acquire row.channel row.tenant limit.1 limit.2) w.counters
        { w with
          counters := answer.2
          live :=
            if answer.1 = .decision { granted := true } then slotOf row :: w.live else w.live }
  | .release slot =>
      if slot ∈ w.live then
        some { w with
          counters := (limiterOf redisReady (.release slot.channel slot.tenant) w.counters).2
          live := w.live.erase slot }
      else none
  | .count => some { w with counted := w.table.activeCountsByChannel }
  | .calibrate =>
      match w.counted with
      | [] => none
      | (channel, count) :: counted =>
          some { w with
            counters :=
              (limiterOf redisReady (.calibrateChannel channel count 3600) w.counters).2
            counted := counted }

/-- The slots that are held in a channel, and there by a tenant. -/
def occupied (live : List Slot) (channel : String) : ℕ := live.countP (·.channel = channel)

def occupiedBy (live : List Slot) (channel tenant : String) : ℕ :=
  live.countP fun slot => slot.channel = channel ∧ slot.tenant = tenant

/-- The slots that are held under a key. -/
def held (live : List Slot) (key : String) : ℕ :=
  live.countP (fun slot => channelKey slot.channel = key) +
    live.countP fun slot => tenantKey slot.channel slot.tenant = key

/-- No channel and no tenant holds more than its limit. -/
structure Within (live : List Slot) : Prop where
  channels : ∀ channel, occupied live channel ≤ max 0 (limits channel).1
  tenants : ∀ channel tenant, occupiedBy live channel tenant ≤ max 0 (limits channel).2

/-- A calibration that lowers a counter finds no more slots held under it than were counted. -/
def Sparing (w : World) : Act → Prop
  | .calibrate => ∀ group ∈ w.counted.head?,
      group.2 < w.counters.count (channelKey group.1) → held w.live (channelKey group.1) ≤ group.2
  | _ => True

instance (w : World) (a : Act) : Decidable (Sparing w a) :=
  match a with
  | .calibrate => inferInstanceAs (Decidable (∀ group ∈ w.counted.head?, _ → _))
  | .write _ => isTrue trivial
  | .acquire _ => isTrue trivial
  | .release _ => isTrue trivial
  | .count => isTrue trivial

/-- No slot is held yet, and no counter is negative. -/
structure Fresh (w : World) : Prop where
  live : w.live = []
  nonneg : ∀ key, 0 ≤ w.counters.count key

/-! ### The slots under a key -/

variable {live live' : List Slot} {slot : Slot} {key channel tenant : String} {c : String → ℤ}

theorem held_cons : held (slot :: live) key = held live key +
    ((if key = channelKey slot.channel then 1 else 0) +
      if key = tenantKey slot.channel slot.tenant then 1 else 0) := by
  simp only [held, List.countP_cons, decide_eq_true_eq, eq_comm (a := key)]
  omega

theorem held_perm (h : live.Perm live') : held live key = held live' key := by
  simp only [held, h.countP_eq]

theorem occupied_le_held : occupied live channel ≤ held live (channelKey channel) := by
  refine (List.countP_mono_left fun slot _ h => ?_).trans (Nat.le_add_right _ _)
  simpa using congrArg channelKey (of_decide_eq_true h)

theorem occupiedBy_le_held : occupiedBy live channel tenant ≤ held live (tenantKey channel tenant) := by
  refine (List.countP_mono_left fun slot _ h => ?_).trans (Nat.le_add_left _ _)
  obtain ⟨rfl, rfl⟩ := of_decide_eq_true h
  simp

theorem channelKey_ne_tenantKey : channelKey channel ≠ tenantKey channel tenant := by
  intro h
  have hlen := congrArg (·.toList.length) h
  simp [channelKey, tenantKey] at hlen

theorem take_apply (key' : String) : take c key key' = c key' + if key' = key then 1 else 0 := by
  by_cases h : key' = key <;> simp [take, h]

theorem drop_apply (hc : 0 < c key) (key' : String) :
    drop c key key' = c key' - if key' = key then 1 else 0 := by
  by_cases h : key' = key <;> simp [drop, hc, h]

/-! ### The limits -/

/-- No counter is below the slots held under its key. -/
def Covered (live : List Slot) (c : String → ℤ) : Prop := ∀ key, held live key ≤ c key

/-- A slot that is granted is counted under both its keys. -/
theorem Covered.take (h : Covered live c) (slot : Slot) :
    Covered (slot :: live)
      (Slots.take (Slots.take c (channelKey slot.channel)) (tenantKey slot.channel slot.tenant)) := by
  intro key
  have := h key
  rw [take_apply, take_apply, held_cons]
  push_cast
  omega

/-- A slot that is given back was counted under both its keys. -/
theorem Covered.drop (h : Covered live c) (hm : slot ∈ live) :
    Covered (live.erase slot)
      (Slots.drop (Slots.drop c (channelKey slot.channel)) (tenantKey slot.channel slot.tenant)) := by
  intro key
  have hheld : ∀ key, held live key = held (live.erase slot) key + _ := fun key =>
    (held_perm (List.perm_cons_erase hm)).trans held_cons
  have hch : 0 < c (channelKey slot.channel) := by
    have := h (channelKey slot.channel)
    rw [hheld, if_pos rfl] at this
    omega
  have hne : tenantKey slot.channel slot.tenant ≠ channelKey slot.channel :=
    Ne.symm channelKey_ne_tenantKey
  have htn : 0 < Slots.drop c (channelKey slot.channel) (tenantKey slot.channel slot.tenant) := by
    have := h (tenantKey slot.channel slot.tenant)
    rw [hheld, if_neg hne, if_pos rfl] at this
    rw [drop_apply hch, if_neg hne]
    omega
  have := h key
  rw [hheld] at this
  rw [drop_apply htn, drop_apply hch]
  push_cast at this
  omega

/-- A counter is lowered to no less than what is held under it. -/
theorem Covered.cut (h : Covered live c) {real : ℤ} (hreal : real < c key → held live key ≤ real) :
    Covered live (Slots.cut c key real) := by
  intro key'
  have := h key'
  unfold Slots.cut
  split
  · by_cases hk : key' = key
    · rw [hk, Function.update_self]
      exact hreal ‹_›
    · rwa [Function.update_of_ne hk]
  · exact this

variable {limits}

/-- One slot more, where the counters are below the limits. -/
theorem Within.cons (h : Within limits live) (hc : Covered live c)
    (hch : c (channelKey slot.channel) < (limits slot.channel).1)
    (htn : c (tenantKey slot.channel slot.tenant) < (limits slot.channel).2) :
    Within limits (slot :: live) := by
  refine ⟨fun channel => ?_, fun channel tenant => ?_⟩
  · have hold := h.channels channel
    simp only [occupied, List.countP_cons, decide_eq_true_eq] at hold ⊢
    split
    · subst channel
      have := hc (channelKey slot.channel)
      have : live.countP (·.channel = slot.channel) ≤ held live (channelKey slot.channel) :=
        occupied_le_held
      omega
    · exact hold
  · have hold := h.tenants channel tenant
    simp only [occupiedBy, List.countP_cons, decide_eq_true_eq] at hold ⊢
    split
    · rename_i he
      obtain ⟨rfl, rfl⟩ := he
      have := hc (tenantKey slot.channel slot.tenant)
      have : live.countP (fun s => s.channel = slot.channel ∧ s.tenant = slot.tenant) ≤
          held live (tenantKey slot.channel slot.tenant) := occupiedBy_le_held
      omega
    · exact hold

theorem Within.erase (h : Within limits live) (slot : Slot) : Within limits (live.erase slot) := by
  refine ⟨fun channel => ?_, fun channel tenant => ?_⟩
  · have := h.channels channel
    have : occupied (live.erase slot) channel ≤ occupied live channel :=
      (List.erase_sublist).countP_le
    omega
  · have := h.tenants channel tenant
    have : occupiedBy (live.erase slot) channel tenant ≤ occupiedBy live channel tenant :=
      (List.erase_sublist).countP_le
    omega

variable {redisReady}

theorem step_invariant {w w' : World} {a : Act} (hs : step redisReady limits w a = some w')
    (hspare : Sparing w a) (hc : Covered w.live w.counters.count) (hw : Within limits w.live) :
    Covered w'.live w'.counters.count ∧ Within limits w'.live := by
  have hserve := fun call => limiterOf_simulates redisReady call w.counters _ rfl
  cases a with
  | write table =>
      simp only [step] at hs
      split at hs <;> cases hs
      exact ⟨hc, hw⟩
  | acquire taskId =>
      obtain ⟨row, -, rfl⟩ := Option.map_eq_some_iff.mp hs
      obtain ⟨ha, hcount⟩ :=
        hserve (.acquire row.channel row.tenant (limits row.channel).1 (limits row.channel).2)
      simp only [Keeping] at hcount
      simp only [ha, hcount, Slots.serve]
      split
      · exact ⟨hc, hw⟩
      · split
        · exact ⟨hc, hw⟩
        · rename_i hch htn
          exact ⟨hc.take (slotOf row), hw.cons hc (not_le.mp hch) (not_le.mp htn)⟩
  | release slot =>
      simp only [step] at hs
      split at hs <;> cases hs
      have hcount := (hserve (.release slot.channel slot.tenant)).2
      simp only [Keeping] at hcount
      rw [hcount]
      exact ⟨hc.drop ‹_›, hw.erase slot⟩
  | count =>
      cases hs
      exact ⟨hc, hw⟩
  | calibrate =>
      simp only [step] at hs
      split at hs <;> cases hs
      rename_i channel count counted hcounted
      have hcount := (hserve (.calibrateChannel channel count 3600)).2
      simp only [Keeping] at hcount
      -- the condition keeps the slots that are held under the lower counter
      refine ⟨?_, hw⟩
      rw [hcount]
      refine hc.cut fun hlt => ?_
      exact_mod_cast hspare (channel, count) (by rw [hcounted]; rfl) hlt

/-- **The limits hold in every run in which no calibration lowers a counter under the slots that are
held.** -/
theorem within_limits {w₀ w : World} (h₀ : Fresh w₀)
    (hrun : Steps (step redisReady limits) Sparing w₀ w) : Within limits w.live := by
  have hstart : Covered w₀.live w₀.counters.count ∧ Within limits w₀.live := by
    rw [h₀.live]
    exact ⟨fun key => h₀.nonneg key, by simp [occupied], by simp [occupiedBy]⟩
  exact (hrun.invariant (I := fun w => Covered w.live w.counters.count ∧ Within limits w.live)
    (fun w a w' hI hspare hs => step_invariant hs hspare hI.1 hI.2) hstart).2

/-- A count that is not old spares the slots: where each is held for an active task, no task holds
two, and no tenant's counter has the name of a channel's. -/
theorem sparing_of_counted {w : World} (hactive : w.live ⊆ w.table.active.map slotOf)
    (hone : w.live.Nodup)
    (hnames : ∀ slot ∈ w.live, ∀ channel ∈ w.table.activeChannels,
      tenantKey slot.channel slot.tenant ≠ channelKey channel)
    (hcounted : w.counted = w.table.activeCountsByChannel) : Sparing w .calibrate := by
  rintro group hg -
  have hmem : group ∈ w.table.activeCountsByChannel := hcounted ▸ List.mem_of_mem_head? hg
  obtain ⟨channel, hch, rfl⟩ := List.mem_map.mp hmem
  have htenants : w.live.countP (fun slot => tenantKey slot.channel slot.tenant =
      channelKey channel) = 0 :=
    List.countP_eq_zero.mpr fun slot hs => by simpa using hnames slot hs channel hch
  have hsub : w.live.filter (·.channel = channel) ⊆
      (w.table.active.filter (·.channel = channel)).map slotOf := by
    intro slot hs
    obtain ⟨hl, hc⟩ := List.mem_filter.mp hs
    obtain ⟨row, hrow, rfl⟩ := List.mem_map.mp (hactive hl)
    exact List.mem_map_of_mem (List.mem_filter.mpr ⟨hrow, hc⟩)
  have hle := (List.subperm_of_subset (hone.filter _) hsub).length_le
  rw [List.length_map, ← List.countP_eq_length_filter, ← List.countP_eq_length_filter] at hle
  simpa [held, htenants, channelKey_injective.eq_iff, Table.activeIn] using hle

/-! ### A run, and one that goes wrong -/

/-- A task of the sample channel. -/
def sampleTask (name : String) : AsyncTask :=
  { sampleRow with taskId := name, idempotencyKey := name }

def oneTask : Table := .single (sampleTask "a")

def threeTasks : Table :=
  ⟨[sampleTask "a", sampleTask "b", sampleTask "c"], by decide, by decide⟩

def sampleWorld (table : Table) (leaked : Option ℤ) : World :=
  ⟨Function.update Counters.empty (channelKey "channel") leaked, table, [], []⟩

theorem sampleWorld_fresh (table : Table) (leaked : Option ℤ) (h : 0 ≤ leaked.getD 0) :
    Fresh (sampleWorld table leaked) := by
  refine ⟨rfl, fun key => ?_⟩
  change 0 ≤ Counters.count (Function.update Counters.empty _ leaked) key
  rw [Counters.count_update]
  by_cases hk : key = channelKey "channel" <;> simp [hk, h, Counters.count, Counters.empty]

/-- Seven leaked slots are repaired while two tasks hold one each, and the limit still holds. -/
theorem within_limits_repaired : ∃ w : World,
    w.live.length = 2 ∧ w.counters.count (channelKey "channel") = 3 ∧
      Within (fun _ => (9, 9)) w.live := by
  obtain ⟨w, hrun, hp⟩ := Steps.of_any (step true fun _ => (9, 9)) Sparing
    (sampleWorld threeTasks (some 7)) [.count, .acquire "a", .acquire "b", .calibrate]
    (fun w => decide (w.live.length = 2 ∧ w.counters.count (channelKey "channel") = 3))
    (by decide)
  obtain ⟨hlive, hcount⟩ := of_decide_eq_true hp
  exact ⟨w, hlive, hcount, within_limits (sampleWorld_fresh threeTasks (some 7) (by decide)) hrun⟩

/-- The inspector counts one active task, two more are accepted, two of the three hold a slot, and
the counter is lowered to the one: the third is granted a slot over the limit of two. -/
theorem overrun : ∃ w : World,
    Steps (step true fun _ => (2, 9)) (fun _ _ => True) (sampleWorld oneTask none) w ∧
      ¬ Within (fun _ => (2, 9)) w.live := by
  obtain ⟨w, hrun, hp⟩ := Steps.of_any (step true fun _ => (2, 9)) (fun _ _ => True)
    (sampleWorld oneTask none)
    [.count, .write threeTasks, .acquire "a", .acquire "b", .calibrate, .acquire "c"]
    (fun w => decide (occupied w.live "channel" = 3))
    (by decide)
  refine ⟨w, hrun, fun hw => ?_⟩
  have := hw.channels "channel"
  rw [of_decide_eq_true hp] at this
  exact absurd this (by decide)

end AsyncGateway.Slots
