import AsyncGateway.Db.Table
import AsyncGateway.Infra.Concurrency
import Mathlib.Data.List.Dedup

/-!
# Workers — the calibration of the limiter

`calibrate_concurrency` lowers the counters of the limiter to what the database has: the pass goes
over the channels of the active tasks, and lowers the counter of each (`calibrated_count`).  What a
crashed worker left under any other key stays (`repaired_iff`).
-/

namespace AsyncGateway

open Interleave Limiter

/-! ### What the database counts -/

namespace Table

variable (tbl : Table)

def active : List AsyncTask := tbl.rows.filter fun row => row.status ∈ activeStatuses

/-- The active tasks of a channel. -/
def activeIn (channel : String) : ℕ := tbl.active.countP fun row => row.channel = channel

/-- The active tasks of a channel and a tenant, a row of `active_counts`. -/
def activeOf (channel tenant : String) : ℕ :=
  tbl.active.countP fun row => row.channel = channel ∧ row.tenant = tenant

/-- The channels that have an active task. -/
def activeChannels : List String := (tbl.active.map (·.channel)).dedup

/-- `active_counts_by_channel`. -/
def activeCountsByChannel : List (String × ℕ) :=
  tbl.activeChannels.map fun channel => (channel, tbl.activeIn channel)

variable {tbl}

theorem mem_activeChannels {channel : String} :
    channel ∈ tbl.activeChannels ↔ 0 < tbl.activeIn channel := by
  simp [activeChannels, activeIn, List.countP_pos_iff]

end Table

/-! ### The pass -/

/-- `Container.limiter`. -/
def limiterOf (redisReady : Bool) : Server Call Answer Counters :=
  if redisReady then RedisConcurrencyLimiter.serve 3600 else MemoryConcurrencyLimiter.serve

/-- The loop of `calibrate_concurrency` over the groups that are left. -/
def calibrateLoop (limiter : Server Call Answer Counters) :
    List (String × ℕ) → ℕ → StateM Counters ℕ
  | [], fixed => pure fixed
  | (channel, count) :: real, fixed => do
      let drift ← limiter (.calibrateChannel channel count 3600)
      calibrateLoop limiter real (if drift = .drift 0 then fixed else fixed + 1)

def calibrateConcurrency (limiter : Server Call Answer Counters) (tbl : Table) :
    StateM Counters ℕ :=
  calibrateLoop limiter tbl.activeCountsByChannel 0

theorem limiterOf_simulates (redisReady : Bool) :
    Simulates Keeping (limiterOf redisReady) Slots.serve := by
  cases redisReady with
  | true => exact RedisConcurrencyLimiter.simulates 3600
  | false => exact MemoryConcurrencyLimiter.simulates

/-! ### What the pass leaves -/

theorem channelKey_injective : Function.Injective channelKey := by
  intro a b h
  simpa [channelKey, String.ext_iff] using h

/-- A tenant's counter could be a channel's, of this name. -/
theorem tenantKey_eq (channel tenant : String) :
    tenantKey channel tenant = channelKey (channel ++ "\x7d:\x7b" ++ tenant) := by
  simp [tenantKey, channelKey, String.append_assoc]

/-- Cut the counters of the channels, each to its own number. -/
def cutAll (real : String → ℕ) (channels : List String) (c : String → ℤ) : String → ℤ :=
  channels.foldl (fun c channel => Slots.cut c (channelKey channel) (real channel)) c

theorem cut_self (c : String → ℤ) (key : String) (real : ℤ) :
    Slots.cut c key real key = min (c key) real := by
  unfold Slots.cut
  split
  · rw [Function.update_self]
    omega
  · omega

theorem cut_of_ne (c : String → ℤ) {key key' : String} (real : ℤ) (h : key' ≠ key) :
    Slots.cut c key real key' = c key' := by
  unfold Slots.cut
  split
  · exact Function.update_of_ne h _ _
  · rfl

theorem cutAll_of_notMem (real : String → ℕ) {channels : List String} (c : String → ℤ)
    {key : String} (h : ∀ channel ∈ channels, key ≠ channelKey channel) :
    cutAll real channels c key = c key := by
  induction channels generalizing c with
  | nil => rfl
  | cons channel channels ih =>
      have hk := h channel List.mem_cons_self
      exact (ih _ fun ch hch => h ch (List.mem_cons_of_mem _ hch)).trans (cut_of_ne c _ hk)

theorem cutAll_of_mem (real : String → ℕ) {channels : List String} (c : String → ℤ)
    {channel : String} (h : channel ∈ channels) :
    cutAll real channels c (channelKey channel) =
      min (c (channelKey channel)) (real channel) := by
  induction channels generalizing c with
  | nil => cases h
  | cons ch channels ih =>
      change cutAll real channels (Slots.cut c (channelKey ch) (real ch)) _ = _
      by_cases hin : channel ∈ channels
      · rw [ih _ hin]
        by_cases he : channel = ch
        · -- the channel comes twice: it is cut twice, to one number
          rw [he, cut_self, min_assoc, min_self]
        · rw [cut_of_ne c _ fun hk => he (channelKey_injective hk)]
      · obtain rfl : channel = ch := (List.mem_cons.mp h).resolve_right hin
        rw [cutAll_of_notMem, cut_self]
        rintro ch hch hk
        exact hin (channelKey_injective hk ▸ hch)

/-- The pass cuts the counters of the channels that have an active task. -/
theorem calibrated_count (redisReady : Bool) (tbl : Table) (s : Counters) :
    Counters.count (calibrateConcurrency (limiterOf redisReady) tbl s).2 =
      cutAll tbl.activeIn tbl.activeChannels s.count := by
  have hloop : ∀ (channels : List String) fixed (s : Counters),
      Counters.count (calibrateLoop (limiterOf redisReady)
        (channels.map fun channel => (channel, tbl.activeIn channel)) fixed s).2 =
      cutAll tbl.activeIn channels s.count := by
    intro channels
    induction channels with
    | nil => exact fun _ _ => rfl
    | cons channel channels ih =>
        intro fixed s
        refine (ih _ _).trans ?_
        have hcall := (limiterOf_simulates redisReady
          (.calibrateChannel channel (tbl.activeIn channel) 3600) s _ rfl).2
        exact congrArg (cutAll tbl.activeIn channels) hcall
  exact hloop _ _ _

/-- No counter is more than what the database counts: nothing is blocked by a leak. -/
structure Repaired (tbl : Table) (s : Counters) : Prop where
  channels : ∀ channel, s.count (channelKey channel) ≤ tbl.activeIn channel
  tenants : ∀ channel tenant, s.count (tenantKey channel tenant) ≤ tbl.activeOf channel tenant

/-- **The pass repairs the limiter exactly where nothing leaked but in the counters of channels that
have an active task**: the channels without one have no counter, and those of the tenants are right
already (or are the counter of a channel that has such a name, and that is cut low enough). -/
theorem repaired_iff (redisReady : Bool) (tbl : Table) (s : Counters) :
    Repaired tbl (calibrateConcurrency (limiterOf redisReady) tbl s).2 ↔
      (∀ channel, tbl.activeIn channel = 0 → s.count (channelKey channel) ≤ 0) ∧
        ∀ channel tenant, s.count (tenantKey channel tenant) ≤ tbl.activeOf channel tenant ∨
          0 < tbl.activeIn (channel ++ "\x7d:\x7b" ++ tenant) ∧
            tbl.activeIn (channel ++ "\x7d:\x7b" ++ tenant) ≤ tbl.activeOf channel tenant := by
  have hcount := calibrated_count redisReady tbl s
  have hidle : ∀ channel, tbl.activeIn channel = 0 →
      cutAll tbl.activeIn tbl.activeChannels s.count (channelKey channel) =
        s.count (channelKey channel) := by
    intro channel h
    refine cutAll_of_notMem _ _ fun ch hch hk => ?_
    obtain rfl := channelKey_injective hk
    exact absurd (Table.mem_activeChannels.mp hch) (by omega)
  have hbusy : ∀ channel, 0 < tbl.activeIn channel →
      cutAll tbl.activeIn tbl.activeChannels s.count (channelKey channel) =
        min (s.count (channelKey channel)) (tbl.activeIn channel) :=
    fun channel h => cutAll_of_mem _ _ (Table.mem_activeChannels.mpr h)
  constructor
  · rintro ⟨hch, htn⟩
    simp only [hcount] at hch htn
    refine ⟨fun channel h => ?_, fun channel tenant => ?_⟩
    · have := hch channel
      rwa [hidle channel h, h] at this
    · have := htn channel tenant
      -- a tenant's counter may have the name of a channel's: then the pass cuts it, too
      rw [tenantKey_eq] at this ⊢
      rcases Nat.eq_zero_or_pos (tbl.activeIn (channel ++ "\x7d:\x7b" ++ tenant)) with h | h
      · exact .inl (hidle _ h ▸ this)
      · rw [hbusy _ h, min_le_iff] at this
        exact this.imp_right fun hle => ⟨h, by exact_mod_cast hle⟩
  · rintro ⟨hch, htn⟩
    refine ⟨fun channel => ?_, fun channel tenant => ?_⟩
    · rw [hcount]
      rcases Nat.eq_zero_or_pos (tbl.activeIn channel) with h | h
      · rw [hidle channel h, h]
        exact hch channel h
      · rw [hbusy channel h]
        exact min_le_right _ _
    · have := htn channel tenant
      rw [tenantKey_eq] at this
      rw [hcount, tenantKey_eq]
      rcases Nat.eq_zero_or_pos (tbl.activeIn (channel ++ "\x7d:\x7b" ++ tenant)) with h | h
      · rw [hidle _ h]
        exact this.resolve_right fun h' => by omega
      · rw [hbusy _ h]
        refine min_le_iff.mpr (this.imp_right fun h' => ?_)
        exact_mod_cast h'.2

/-- A worker crashed with the last task of its channel: the slots it held stay taken. -/
theorem leak_stays : ¬ Repaired (.single { sampleRow with status := .dead })
    (calibrateConcurrency (limiterOf true) (.single { sampleRow with status := .dead })
      (Function.update (Function.update Counters.empty (channelKey "channel") (some 1))
        (tenantKey "channel" "tenant") (some 1))).2 := by
  intro h
  have := h.channels "channel"
  revert this
  decide

end AsyncGateway
