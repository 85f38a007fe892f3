import AsyncGateway.Domain.Errors
import AsyncGateway.Lib.Server

/-!
# Infra — the concurrency limiter

The slots of the channels and of their tenants: the three Lua scripts over the keys of Redis
(`RedisConcurrencyLimiter`), and the limiter of one process (`MemoryConcurrencyLimiter`).  A script
is one atomic step, and no key expires while it is looked at; the numbers of Lua are integers here.
-/

namespace AsyncGateway

open Interleave

/-! ### Redis -/

/-- The integers that are stored in Redis, or in a dictionary, by their key. -/
abbrev Counters := String → Option ℤ

/-- `get(key, 0)`. -/
def Counters.count (s : Counters) (key : String) : ℤ := (s key).getD 0

namespace Redis

/-- `tonumber(redis.call('GET', key) or '0')`. -/
def get (key : String) : StateM Counters ℤ := fun s => (s.count key, s)

def set (key : String) (value : ℤ) : StateM Counters Unit := fun s =>
  ((), Function.update s key (some value))

def del (key : String) : StateM Counters Unit := fun s => ((), Function.update s key none)

def incr (key : String) : StateM Counters Unit := fun s =>
  ((), Function.update s key (some (s.count key + 1)))

def decr (key : String) : StateM Counters Unit := fun s =>
  ((), Function.update s key (some (s.count key - 1)))

/-- `EXPIRE`: the key is not looked at any more after its time. -/
def expire (_key : String) (_ttl : ℤ) : StateM Counters Unit := pure ()

end Redis

/-! ### The scripts -/

open Redis in
/-- `ACQUIRE_LUA`. -/
def acquireLua (ch tn : String) (chLimit tnLimit ttl : ℤ) : StateM Counters ℤ := do
  let curCh ← get ch
  if chLimit ≤ curCh then pure 1
  else do
    let curTn ← get tn
    if tnLimit ≤ curTn then pure 2
    else do
      incr ch
      expire ch ttl
      incr tn
      expire tn ttl
      pure 0

open Redis in
/-- The loop of `RELEASE_LUA` over the keys that are left. -/
def releaseLoop : List String → ℤ → StateM Counters ℤ
  | [], changed => pure changed
  | key :: keys, changed => do
      let v ← get key
      if 0 < v then do
        decr key
        releaseLoop keys (changed + 1)
      else releaseLoop keys changed

/-- `RELEASE_LUA`. -/
def releaseLua (keys : List String) : StateM Counters ℤ := releaseLoop keys 0

open Redis in
/-- `CALIBRATE_LUA`. -/
def calibrateLua (key : String) (real ttl : ℤ) : StateM Counters ℤ := do
  let v ← get key
  if real < v then do
    if 0 < real then do
      set key real
      expire key ttl
    else del key
    pure (v - real)
  else pure 0

/-! ### The two limiters -/

namespace Limiter

/-- `SlotDecision`, with the reason of a denial. -/
structure SlotDecision where
  granted : Bool
  reason : String := "ok"
  retryAfter : Option ℚ := none
  deriving DecidableEq

/-- `_keys(channel, tenant)[0]`. -/
def channelKey (channel : String) : String := "conc:\x7b" ++ channel ++ "\x7d"

/-- `_keys(channel, tenant)[1]`. -/
def tenantKey (channel tenant : String) : String :=
  "conc:\x7b" ++ channel ++ "\x7d:\x7b" ++ tenant ++ "\x7d"

/-- A call to a limiter. -/
inductive Call : Type where
  | acquire (channel tenant : String) (channelLimit tenantLimit : ℤ)
  | release (channel tenant : String)
  | calibrateChannel (channel : String) (realActive : ℕ) (ttlSeconds : ℤ)

inductive Answer : Type where
  | decision (d : SlotDecision)
  | released
  | drift (n : ℤ)
  deriving DecidableEq

/-- No slot, and why. -/
def denied (reason : String) : SlotDecision :=
  { granted := false, reason := reason, retryAfter := some 1 }

end Limiter

open Limiter

namespace RedisConcurrencyLimiter

variable (ttl : ℤ)

def acquire (channel tenant : String) (channelLimit tenantLimit : ℤ) :
    StateM Counters SlotDecision := do
  let code ← acquireLua (channelKey channel) (tenantKey channel tenant) channelLimit tenantLimit ttl
  if code = 0 then pure { granted := true }
  else pure (denied (if code = 1 then "channel_concurrency" else "tenant_concurrency"))

def release (channel tenant : String) : StateM Counters Unit := do
  let _ ← releaseLua [channelKey channel, tenantKey channel tenant]
  pure ()

def calibrateChannel (channel : String) (realActive : ℕ) (ttlSeconds : ℤ) : StateM Counters ℤ :=
  calibrateLua (channelKey channel) realActive ttlSeconds

def serve : Server Call Answer Counters
  | .acquire channel tenant channelLimit tenantLimit =>
      .decision <$> acquire ttl channel tenant channelLimit tenantLimit
  | .release channel tenant => (fun _ => .released) <$> release channel tenant
  | .calibrateChannel channel realActive ttlSeconds =>
      .drift <$> calibrateChannel channel realActive ttlSeconds

end RedisConcurrencyLimiter

namespace MemoryConcurrencyLimiter

/-- `self.counts.get(key, 0)`. -/
def get (key : String) : StateM Counters ℤ := fun s => (s.count key, s)

/-- `self.counts[key] = value`. -/
def put (key : String) (value : ℤ) : StateM Counters Unit := fun s =>
  ((), Function.update s key (some value))

def acquire (channel tenant : String) (channelLimit tenantLimit : ℤ) :
    StateM Counters SlotDecision := do
  let ch := channelKey channel
  let tn := tenantKey channel tenant
  let curCh ← get ch
  if channelLimit ≤ curCh then pure (denied "channel_concurrency")
  else do
    let curTn ← get tn
    if tenantLimit ≤ curTn then pure (denied "tenant_concurrency")
    else do
      let curCh ← get ch
      put ch (curCh + 1)
      let curTn ← get tn
      put tn (curTn + 1)
      pure { granted := true }

/-- The body of the loop of `release`. -/
def releaseKey (key : String) : StateM Counters Unit := do
  let v ← get key
  if 0 < v then put key (v - 1) else pure ()

def release (channel tenant : String) : StateM Counters Unit := do
  releaseKey (channelKey channel)
  releaseKey (tenantKey channel tenant)

def calibrateChannel (channel : String) (realActive : ℕ) : StateM Counters ℤ := do
  let ch := channelKey channel
  let current ← get ch
  if realActive < current then do
    put ch realActive
    pure (current - realActive)
  else pure 0

def serve : Server Call Answer Counters
  | .acquire channel tenant channelLimit tenantLimit =>
      .decision <$> acquire channel tenant channelLimit tenantLimit
  | .release channel tenant => (fun _ => .released) <$> release channel tenant
  | .calibrateChannel channel realActive _ => .drift <$> calibrateChannel channel realActive

end MemoryConcurrencyLimiter

/-! ### What a limiter is for -/

namespace Slots

variable (c : String → ℤ)

/-- One slot more under the key. -/
def take (key : String) : String → ℤ := Function.update c key (c key + 1)

/-- One slot less under the key, but no fewer than none. -/
def drop (key : String) : String → ℤ := if 0 < c key then Function.update c key (c key - 1) else c

/-- No more than `real` slots under the key. -/
def cut (key : String) (real : ℤ) : String → ℤ :=
  if real < c key then Function.update c key real else c

/-- The limiter over the counts alone: how a missing counter, a deleted one and a zero are kept is
left open. -/
def serve : Server Call Answer (String → ℤ)
  | .acquire channel tenant channelLimit tenantLimit => fun c =>
      if channelLimit ≤ c (channelKey channel) then (.decision (denied "channel_concurrency"), c)
      else if tenantLimit ≤ c (tenantKey channel tenant) then
        (.decision (denied "tenant_concurrency"), c)
      else
        (.decision { granted := true },
          take (take c (channelKey channel)) (tenantKey channel tenant))
  | .release channel tenant => fun c =>
      (.released, drop (drop c (channelKey channel)) (tenantKey channel tenant))
  | .calibrateChannel channel realActive _ => fun c =>
      (.drift (max 0 (c (channelKey channel) - realActive)), cut c (channelKey channel) realActive)

end Slots

/-! ### Both limiters keep the counts -/

theorem Counters.count_update (s : Counters) (key : String) (v : Option ℤ) :
    Counters.count (Function.update s key v) = Function.update s.count key (v.getD 0) := by
  funext key'
  by_cases h : key' = key <;> simp [Counters.count, Function.update, h]

/-- A limiter whose counters, wherever they are kept, are these counts. -/
def Keeping (s : Counters) (c : String → ℤ) : Prop := s.count = c

/-- What both limiters do for a slot: they look at the channel first, then at the tenant. -/
def Counters.acquired (ch tn : String) (chLimit tnLimit : ℤ) (s : Counters) :
    SlotDecision × Counters :=
  if chLimit ≤ s.count ch then (denied "channel_concurrency", s)
  else if tnLimit ≤ s.count tn then (denied "tenant_concurrency", s)
  else
    let s' : Counters := Function.update s ch (some (s.count ch + 1))
    ({ granted := true }, Function.update s' tn (some (s'.count tn + 1)))

theorem Counters.acquired_denied {ch tn : String} {chLimit tnLimit : ℤ} {s : Counters}
    (h : (acquired ch tn chLimit tnLimit s).1.granted = false) :
    (acquired ch tn chLimit tnLimit s).2 = s := by
  revert h
  unfold acquired
  split
  · exact fun _ => rfl
  · split
    · exact fun _ => rfl
    · intro h
      cases h

theorem Counters.acquired_keeps (channel tenant : String) (channelLimit tenantLimit : ℤ)
    (s : Counters) :
    let p := acquired (channelKey channel) (tenantKey channel tenant) channelLimit tenantLimit s
    let q := Slots.serve (.acquire channel tenant channelLimit tenantLimit) s.count
    .decision p.1 = q.1 ∧ Keeping p.2 q.2 := by
  simp only [Slots.serve, acquired]
  split
  · exact ⟨rfl, rfl⟩
  · split
    · exact ⟨rfl, rfl⟩
    · exact ⟨rfl, by simp [Keeping, Counters.count_update, Slots.take]⟩

/-- `RELEASE_LUA` drops a slot under each key that has one. -/
theorem releaseLoop_count (keys : List String) (changed : ℤ) (s : Counters) :
    (releaseLoop keys changed s).2.count = keys.foldl Slots.drop s.count := by
  induction keys generalizing changed s with
  | nil => rfl
  | cons key keys ih =>
      have hstep : (releaseLoop (key :: keys) changed s) =
          if 0 < s.count key then
            releaseLoop keys (changed + 1) (Function.update s key (some (s.count key - 1)))
          else releaseLoop keys changed s := by
        change (if 0 < s.count key then _ else _ : StateM Counters ℤ) s = _
        split <;> rfl
      rw [hstep, List.foldl_cons, Slots.drop]
      split
      · rw [ih, Counters.count_update]
        rfl
      · exact ih _ _

/-- `CALIBRATE_LUA` lowers the counter to `real`, and gives by how much. -/
theorem calibrateLua_eq (key : String) (real ttl : ℤ) (hreal : 0 ≤ real) (s : Counters) :
    (calibrateLua key real ttl s).1 = max 0 (s.count key - real) ∧
      (calibrateLua key real ttl s).2.count = Slots.cut s.count key real := by
  have hstep : calibrateLua key real ttl s =
      if real < s.count key then
        (s.count key - real,
          Function.update s key (if 0 < real then some real else none))
      else (0, s) := by
    change (if real < s.count key then _ else _ : StateM Counters ℤ) s = _
    split
    · split <;> rfl
    · rfl
  rw [hstep, Slots.cut]
  split
  · refine ⟨by simp only; omega, ?_⟩
    simp only [Counters.count_update]
    split
    · rfl
    · -- a deleted counter is a zero
      rw [show real = 0 by omega]
      rfl
  · exact ⟨by simp only; omega, rfl⟩

namespace RedisConcurrencyLimiter

variable {ttl : ℤ}

/-- `ACQUIRE_LUA`: 1 where the channel is full, else 2 where the tenant is, else a slot of each. -/
theorem acquireLua_eq (ch tn : String) (chLimit tnLimit ttl : ℤ) (s : Counters) :
    acquireLua ch tn chLimit tnLimit ttl s =
      if chLimit ≤ s.count ch then (1, s)
      else if tnLimit ≤ s.count tn then (2, s)
      else (0, (Counters.acquired ch tn chLimit tnLimit s).2) := by
  change (if chLimit ≤ s.count ch then _ else _ : StateM Counters ℤ) s = _
  split
  · rfl
  · rename_i hch
    change (if tnLimit ≤ s.count tn then _ else _ : StateM Counters ℤ) s = _
    split
    · rfl
    · rename_i htn
      rw [Counters.acquired, if_neg hch, if_neg htn]
      rfl

/-- The code of the script, read as a decision. -/
theorem acquire_eq (channel tenant : String) (channelLimit tenantLimit : ℤ) (s : Counters) :
    acquire ttl channel tenant channelLimit tenantLimit s =
      Counters.acquired (channelKey channel) (tenantKey channel tenant) channelLimit tenantLimit
        s := by
  have hread : acquire ttl channel tenant channelLimit tenantLimit s =
      let p := acquireLua (channelKey channel) (tenantKey channel tenant) channelLimit tenantLimit
        ttl s
      (if p.1 = 0 then { granted := true }
        else denied (if p.1 = 1 then "channel_concurrency" else "tenant_concurrency"), p.2) := by
    unfold acquire
    generalize acquireLua (channelKey channel) (tenantKey channel tenant) channelLimit tenantLimit
      ttl = script
    change (if (script s).1 = 0 then _ else _ : StateM Counters SlotDecision) (script s).2 = _
    split <;> simp [*] <;> rfl
  rw [hread, acquireLua_eq, Counters.acquired]
  split
  · rfl
  · split <;> rfl

/-- The limiter of Redis keeps the counts. -/
theorem simulates (ttl : ℤ) : Simulates Keeping (serve ttl) Slots.serve := by
  rintro call s _ rfl
  cases call with
  | acquire channel tenant channelLimit tenantLimit =>
      change Answer.decision (acquire ttl channel tenant channelLimit tenantLimit s).1 = _ ∧
        Counters.count (acquire ttl channel tenant channelLimit tenantLimit s).2 = _
      rw [acquire_eq]
      exact Counters.acquired_keeps channel tenant channelLimit tenantLimit s
  | release channel tenant =>
      exact ⟨rfl, releaseLoop_count [channelKey channel, tenantKey channel tenant] 0 s⟩
  | calibrateChannel channel realActive ttlSeconds =>
      obtain ⟨hd, hc⟩ := calibrateLua_eq (channelKey channel) realActive ttlSeconds (by omega) s
      exact ⟨congrArg Answer.drift hd, hc⟩

end RedisConcurrencyLimiter

namespace MemoryConcurrencyLimiter

theorem acquire_eq (channel tenant : String) (channelLimit tenantLimit : ℤ) (s : Counters) :
    acquire channel tenant channelLimit tenantLimit s =
      Counters.acquired (channelKey channel) (tenantKey channel tenant) channelLimit tenantLimit
        s := by
  rw [Counters.acquired]
  change (if channelLimit ≤ s.count (channelKey channel) then _ else _ :
    StateM Counters SlotDecision) s = _
  split
  · rfl
  · change (if tenantLimit ≤ s.count (tenantKey channel tenant) then _ else _ :
      StateM Counters SlotDecision) s = _
    split <;> rfl

theorem releaseKey_count (key : String) (s : Counters) :
    Counters.count (releaseKey key s).2 = Slots.drop s.count key := by
  have hstep : releaseKey key s =
      if 0 < s.count key then ((), Function.update s key (some (s.count key - 1)))
      else ((), s) := by
    change (if 0 < s.count key then _ else _ : StateM Counters Unit) s = _
    split <;> rfl
  rw [hstep, Slots.drop]
  split
  · exact Counters.count_update _ _ _
  · rfl

theorem calibrateChannel_eq (channel : String) (realActive : ℕ) (s : Counters) :
    calibrateChannel channel realActive s =
      if realActive < s.count (channelKey channel) then
        (s.count (channelKey channel) - realActive,
          Function.update s (channelKey channel) (some (realActive : ℤ)))
      else (0, s) := by
  change (if (realActive : ℤ) < s.count (channelKey channel) then _ else _ :
    StateM Counters ℤ) s = _
  split <;> rfl

/-- The limiter of one process keeps the counts. -/
theorem simulates : Simulates Keeping serve Slots.serve := by
  rintro call s _ rfl
  cases call with
  | acquire channel tenant channelLimit tenantLimit =>
      change Answer.decision (acquire channel tenant channelLimit tenantLimit s).1 = _ ∧
        Counters.count (acquire channel tenant channelLimit tenantLimit s).2 = _
      rw [acquire_eq]
      exact Counters.acquired_keeps channel tenant channelLimit tenantLimit s
  | release channel tenant =>
      refine ⟨rfl, ?_⟩
      change Counters.count (releaseKey _ (releaseKey _ s).2).2 = _
      rw [releaseKey_count, releaseKey_count]
      rfl
  | calibrateChannel channel realActive _ =>
      change Answer.drift (calibrateChannel channel realActive s).1 = _ ∧
        Counters.count (calibrateChannel channel realActive s).2 = _
      rw [calibrateChannel_eq]
      simp only [Slots.serve, Slots.cut]
      split
      · exact ⟨congrArg Answer.drift (by simp only; omega), Counters.count_update _ _ _⟩
      · exact ⟨congrArg Answer.drift (by simp only; omega), rfl⟩

end MemoryConcurrencyLimiter

/-! ### The limiters agree -/

/-- A limiter that has served nothing. -/
def Counters.empty : Counters := fun _ => none

theorem Slots.serve_nonneg (call : Call) (c : String → ℤ) (hc : ∀ key, 0 ≤ c key) :
    ∀ key, 0 ≤ (serve call c).2 key := by
  have htake : ∀ (c : String → ℤ) key, (∀ k, 0 ≤ c k) → ∀ k, 0 ≤ take c key k := by
    intro c key hc k
    have := hc key
    by_cases hk : k = key
    · simp only [take, hk, Function.update_self]
      omega
    · simpa [take, hk] using hc k
  have hdrop : ∀ (c : String → ℤ) key, (∀ k, 0 ≤ c k) → ∀ k, 0 ≤ drop c key k := by
    intro c key hc k
    unfold drop
    split
    · by_cases hk : k = key
      · simp only [hk, Function.update_self]
        omega
      · simpa [hk] using hc k
    · exact hc k
  cases call with
  | acquire channel tenant channelLimit tenantLimit =>
      simp only [serve]
      split
      · exact hc
      · split
        · exact hc
        · exact htake _ _ (htake _ _ hc)
  | release channel tenant => exact hdrop _ _ (hdrop _ _ hc)
  | calibrateChannel channel realActive _ =>
      intro k
      simp only [serve, cut]
      split
      · by_cases hk : k = channelKey channel
        · simp [hk]
        · simpa [hk] using hc k
      · exact hc k

/-- A call that is answered with a denial is an acquire, and changes nothing. -/
theorem RedisConcurrencyLimiter.serve_denied {ttl : ℤ} {call : Call} {s : Counters}
    {d : SlotDecision} (h : (serve ttl call s).1 = .decision d) (hd : d.granted = false) :
    (serve ttl call s).2 = s := by
  cases call with
  | acquire channel tenant channelLimit tenantLimit =>
      have he : (acquire ttl channel tenant channelLimit tenantLimit s).1 = d :=
        Answer.decision.inj h
      change (acquire ttl channel tenant channelLimit tenantLimit s).2 = s
      rw [acquire_eq] at he ⊢
      exact Counters.acquired_denied (he ▸ hd)
  | release channel tenant => cases h
  | calibrateChannel channel realActive ttlSeconds => cases h

theorem MemoryConcurrencyLimiter.serve_denied {call : Call} {s : Counters} {d : SlotDecision}
    (h : (serve call s).1 = .decision d) (hd : d.granted = false) : (serve call s).2 = s := by
  cases call with
  | acquire channel tenant channelLimit tenantLimit =>
      have he : (acquire channel tenant channelLimit tenantLimit s).1 = d := Answer.decision.inj h
      change (acquire channel tenant channelLimit tenantLimit s).2 = s
      rw [acquire_eq] at he ⊢
      exact Counters.acquired_denied (he ▸ hd)
  | release channel tenant => cases h
  | calibrateChannel channel realActive _ => cases h

/-- **The two limiters, started empty, answer every sequence of calls alike and keep the same
counts**, none of them negative; and an acquire that is denied changes nothing in either. -/
theorem limiters_agree (ttl : ℤ) (calls : List Call) (call : Call) :
    let redis := (RedisConcurrencyLimiter.serve ttl).after calls .empty
    let memory := MemoryConcurrencyLimiter.serve.after calls .empty
    (RedisConcurrencyLimiter.serve ttl call redis).1 =
        (MemoryConcurrencyLimiter.serve call memory).1 ∧
      (∀ key, redis.count key = memory.count key ∧ 0 ≤ redis.count key) ∧
      ∀ d, (RedisConcurrencyLimiter.serve ttl call redis).1 = .decision d → d.granted = false →
        (RedisConcurrencyLimiter.serve ttl call redis).2 = redis ∧
          (MemoryConcurrencyLimiter.serve call memory).2 = memory := by
  intro redis memory
  have hsim := (RedisConcurrencyLimiter.simulates ttl).meet MemoryConcurrencyLimiter.simulates
  have hrel : ∃ c, Keeping redis c ∧ Keeping memory c :=
    hsim.after calls ⟨fun _ => 0, rfl, rfl⟩
  have hkeep : Keeping redis (Slots.serve.after calls fun _ => 0) :=
    (RedisConcurrencyLimiter.simulates ttl).after calls rfl
  have hnonneg : ∀ key, 0 ≤ Slots.serve.after calls (fun _ => 0) key :=
    Server.after_invariant Slots.serve_nonneg calls fun _ => le_rfl
  have hans := (hsim call redis memory hrel).1
  refine ⟨hans, fun key => ⟨?_, hkeep ▸ hnonneg key⟩, fun d hd hg => ⟨?_, ?_⟩⟩
  · obtain ⟨c, hr, hm⟩ := hrel
    exact congrFun (hr.trans hm.symm) key
  · exact RedisConcurrencyLimiter.serve_denied hd hg
  · exact MemoryConcurrencyLimiter.serve_denied (hans ▸ hd) hg

end AsyncGateway
