import AsyncGateway.Infra.Histogram
import Mathlib.Data.NNRat.Defs
import Mathlib.Logic.Function.Basic

/-!
# Infra — adaptive polling

The two controllers of the polling, the one in Redis and the one of one process.  A channel has
the histogram of its durations, from which the interval of a poll is computed; a multiplier, which
a 429 doubles and a quiet time takes down; and a pause.  Both controllers are a
`PollingController`, and the laws they share (`LawfulPolling`) say what a call changes of what can
be observed: in Redis every key expires after its time, and a multiplier that is gone is one.

`polling_bounds` says that the multiplier and the intervals stay in their bounds, whatever calls
came before.  Reals are exact, and the clocks start at zero.
-/

namespace AsyncGateway

/-- The settings of a controller. -/
structure PollSettings where
  base : ℚ := 3
  minimum : ℚ := 3
  maximum : ℚ := 60
  initial : ℚ := 5
  hotStartSamples : ℤ := 30
  aimdQuietSeconds : ℚ := 300

structure PollStats where
  p10 : ℚ
  p50 : ℚ
  p95 : ℚ
  samples : ℕ
  warm : Bool

namespace PollSettings

variable (S : PollSettings)

def clamp (value : ℚ) : ℚ := max S.minimum (min S.maximum value)

def aimdUp (multiplier : ℚ) : ℚ :=
  min (S.maximum / max S.base (1 / 1000000)) (max 1 (multiplier * 2))

def aimdDown (multiplier : ℚ) : ℚ := max 1 (multiplier * (9 / 10))

/-- What `stats` computes of a histogram. -/
def statsOf (h : Histogram) : PollStats :=
  let buckets := h.sorted
  { p10 := percentile buckets buckets.total (1 / 10) S.initial
    p50 := percentile buckets buckets.total (1 / 2) S.initial
    p95 := percentile buckets buckets.total (19 / 20) S.initial
    samples := buckets.total
    warm := decide (S.hotStartSamples ≤ buckets.total) }

def computeInterval (elapsed : ℚ) (stats : PollStats) (firstPoll : Bool) : ℚ :=
  if ¬ stats.warm then S.clamp (if firstPoll then S.initial else max S.initial S.minimum)
  else if firstPoll then S.clamp (max stats.p10 S.minimum)
  else
    let p50 := max stats.p50 S.minimum
    let exponent := min ⌊max 0 elapsed / p50⌋ 8
    S.clamp (S.base * 2 ^ exponent.toNat)

end PollSettings

/-- A call that may change the state of a controller; a reading of the statistics is one in Redis,
where they are cached. -/
inductive PollingCall : Type where
  | recordDuration (channel : String) (seconds : ℚ)
  | stats (channel : String)
  | noteRateLimited (channel : String) (retryAfter : Option ℚ≥0)
  | noteCleanPeriod (channel : String)
  | decayIfClean (channel : String) (quietSeconds : ℚ)
  | reset (channel : String) (includeSamples : Bool)

/-- `PollingController`, by what its calls do at a time and what can be read of it. -/
structure PollingController where
  State : Type
  start : State
  call : ℚ≥0 → PollingCall → State → State
  stats : ℚ≥0 → State → String → PollStats
  multiplier : ℚ≥0 → State → String → ℚ
  pausedFor : ℚ≥0 → State → String → ℚ

namespace PollingController

variable (P : PollingController) (S : PollSettings)

def baseInterval (now : ℚ≥0) (s : P.State) (channel : String) (elapsed : ℚ) (firstPoll : Bool) :
    ℚ :=
  S.computeInterval elapsed (P.stats now s channel) firstPoll

def nextInterval (now : ℚ≥0) (s : P.State) (channel : String) (elapsed : ℚ) (firstPoll : Bool) :
    ℚ :=
  S.clamp (P.baseInterval S now s channel elapsed firstPoll * P.multiplier now s channel)

/-- The state after calls, each at its time. -/
def after (history : List (ℚ≥0 × PollingCall)) : P.State :=
  history.foldl (fun s e => P.call e.1 e.2 s) P.start

end PollingController

/-! ### The controller of one process -/

structure MemoryPolling where
  buckets : String → Histogram := fun _ => []
  multiplier : String → Option ℚ := fun _ => none
  pauseUntil : String → Option ℚ := fun _ => none
  lastRateLimited : String → Option ℚ := fun _ => none

namespace MemoryPolling

variable (S : PollSettings) (s : MemoryPolling)

/-- `self.multiplier.get(channel, AIMD_MIN)`. -/
def multiplierOf (channel : String) : ℚ := (s.multiplier channel).getD 1

def recordDuration (channel : String) (seconds : ℚ) : MemoryPolling :=
  { s with
    buckets := Function.update s.buckets channel
      ((s.buckets channel).increment (bucketLabel seconds)) }

def noteRateLimited (now : ℚ≥0) (channel : String) (retryAfter : Option ℚ≥0) : MemoryPolling :=
  let s :=
    { s with
      multiplier := Function.update s.multiplier channel
        (some (S.aimdUp (s.multiplierOf channel)))
      lastRateLimited := Function.update s.lastRateLimited channel (some now) }
  match retryAfter.filter (· ≠ 0) with
  | some r => { s with pauseUntil := Function.update s.pauseUntil channel (some (now + r)) }
  | none => s

def noteCleanPeriod (channel : String) : MemoryPolling :=
  { s with
    multiplier := Function.update s.multiplier channel
      (some (PollSettings.aimdDown (s.multiplierOf channel))) }

def decayIfClean (now : ℚ≥0) (channel : String) (quietSeconds : ℚ) : MemoryPolling :=
  match s.lastRateLimited channel with
  | some last => if now - last < quietSeconds then s else s.noteCleanPeriod channel
  | none => s.noteCleanPeriod channel

def reset (channel : String) (includeSamples : Bool) : MemoryPolling :=
  { s with
    multiplier := Function.update s.multiplier channel none
    pauseUntil := Function.update s.pauseUntil channel none
    lastRateLimited := Function.update s.lastRateLimited channel none
    buckets := if includeSamples then Function.update s.buckets channel [] else s.buckets }

def call (now : ℚ≥0) : PollingCall → MemoryPolling → MemoryPolling
  | .recordDuration channel seconds, s => s.recordDuration channel seconds
  | .stats _, s => s
  | .noteRateLimited channel retryAfter, s => noteRateLimited S s now channel retryAfter
  | .noteCleanPeriod channel, s => s.noteCleanPeriod channel
  | .decayIfClean channel quietSeconds, s => s.decayIfClean now channel quietSeconds
  | .reset channel includeSamples, s => s.reset channel includeSamples

def pausedFor (now : ℚ≥0) (channel : String) : ℚ :=
  max 0 ((s.pauseUntil channel).getD 0 - now)

/-- `MemoryPollingController`. -/
def controller : PollingController where
  State := MemoryPolling
  start := {}
  call := call S
  stats _ s channel := S.statsOf (s.buckets channel)
  multiplier _ s channel := s.multiplierOf channel
  pausedFor now s channel := s.pausedFor now channel

end MemoryPolling

/-! ### The controller in Redis -/

/-- A value with the time its key expires at. -/
structure Expirable (α : Type) where
  value : α
  expiresAt : ℚ

/-- What is found under a key: nothing from its expiry on. -/
def Expirable.live {α : Type} (key : Option (Expirable α)) (now : ℚ≥0) : Option α :=
  (key.filter fun k => decide ((now : ℚ) < k.expiresAt)).map (·.value)

structure RedisPolling where
  hist : String → Option (Expirable Histogram) := fun _ => none
  pct : String → Option (Expirable PollStats) := fun _ => none
  aimd : String → Option (Expirable ℚ) := fun _ => none
  pause : String → Option (Expirable ℚ) := fun _ => none
  rl : String → Option (Expirable ℚ) := fun _ => none

namespace RedisPolling

def histTtlSeconds : ℚ := 604800

def pctCacheSeconds : ℚ := 300

variable (S : PollSettings) (s : RedisPolling)

/-- `_rl_ttl_seconds`. -/
def rlTtlSeconds : ℤ := max 600 ⌊S.aimdQuietSeconds * 3⌋

/-- `_multiplier`. -/
def multiplierOf (now : ℚ≥0) (channel : String) : ℚ := (Expirable.live (s.aimd channel) now).getD 1

/-- `hgetall` of the histogram. -/
def histOf (now : ℚ≥0) (channel : String) : Histogram :=
  (Expirable.live (s.hist channel) now).getD []

/-- `stats`: the cached ones, where there are any. -/
def statsOf (now : ℚ≥0) (channel : String) : PollStats :=
  (Expirable.live (s.pct channel) now).getD (S.statsOf (s.histOf now channel))

def recordDuration (now : ℚ≥0) (channel : String) (seconds : ℚ) : RedisPolling :=
  { s with
    hist := Function.update s.hist channel
      (some ⟨(s.histOf now channel).increment (bucketLabel seconds), now + histTtlSeconds⟩) }

/-- `stats` fills the cache, where it was empty. -/
def fillCache (now : ℚ≥0) (channel : String) : RedisPolling :=
  match Expirable.live (s.pct channel) now with
  | some _ => s
  | none =>
      { s with
        pct := Function.update s.pct channel
          (some ⟨S.statsOf (s.histOf now channel), now + pctCacheSeconds⟩) }

def noteRateLimited (now : ℚ≥0) (channel : String) (retryAfter : Option ℚ≥0) : RedisPolling :=
  let s :=
    { s with
      aimd := Function.update s.aimd channel
        (some ⟨S.aimdUp (s.multiplierOf now channel), now + histTtlSeconds⟩)
      rl := Function.update s.rl channel (some ⟨now, now + rlTtlSeconds S⟩) }
  let pause : ℚ := max 0 (retryAfter.getD 0)
  if 0 < pause then
    { s with
      pause := Function.update s.pause channel
        (some ⟨now + pause, now + (max 60 (⌊pause⌋ + 60) : ℤ)⟩) }
  else s

def noteCleanPeriod (now : ℚ≥0) (channel : String) : RedisPolling :=
  { s with
    aimd := Function.update s.aimd channel
      (some ⟨PollSettings.aimdDown (s.multiplierOf now channel), now + histTtlSeconds⟩) }

def decayIfClean (now : ℚ≥0) (channel : String) (quietSeconds : ℚ) : RedisPolling :=
  match Expirable.live (s.rl channel) now with
  | some last => if now - last < quietSeconds then s else s.noteCleanPeriod now channel
  | none => s.noteCleanPeriod now channel

def reset (channel : String) (includeSamples : Bool) : RedisPolling :=
  { s with
    aimd := Function.update s.aimd channel none
    pause := Function.update s.pause channel none
    rl := Function.update s.rl channel none
    hist := if includeSamples then Function.update s.hist channel none else s.hist
    pct := if includeSamples then Function.update s.pct channel none else s.pct }

def call (now : ℚ≥0) : PollingCall → RedisPolling → RedisPolling
  | .recordDuration channel seconds, s => s.recordDuration now channel seconds
  | .stats channel, s => fillCache S s now channel
  | .noteRateLimited channel retryAfter, s => noteRateLimited S s now channel retryAfter
  | .noteCleanPeriod channel, s => s.noteCleanPeriod now channel
  | .decayIfClean channel quietSeconds, s => s.decayIfClean now channel quietSeconds
  | .reset channel includeSamples, s => s.reset channel includeSamples

def pausedFor (now : ℚ≥0) (channel : String) : ℚ :=
  match Expirable.live (s.pause channel) now with
  | none => 0
  | some until_ => max 0 (until_ - now)

/-- `RedisPollingController`. -/
def controller : PollingController where
  State := RedisPolling
  start := {}
  call := call S
  stats now s channel := statsOf S s now channel
  multiplier now s channel := s.multiplierOf now channel
  pausedFor now s channel := s.pausedFor now channel

end RedisPolling

/-! ### What a call changes of what can be observed -/

/-- The call ends or replaces the pause of the channel. -/
def PollingCall.Repauses (channel : String) : PollingCall → Prop
  | .noteRateLimited ch retryAfter => ch = channel ∧ ∃ r, retryAfter = some r ∧ r ≠ 0
  | .reset ch _ => ch = channel
  | _ => False

/-- The laws of a controller. -/
structure LawfulPolling (S : PollSettings) (P : PollingController) : Prop where
  multiplier_start : ∀ t channel, P.multiplier t P.start channel = 1
  paused_start : ∀ t channel, P.pausedFor t P.start channel = 0
  paused_nonneg : ∀ t s channel, 0 ≤ P.pausedFor t s channel
  /-- The multiplier goes up or down by one step, stays, or is forgotten. -/
  multiplier_call : ∀ now c s t channel, P.multiplier t (P.call now c s) channel = 1 ∨
    P.multiplier t (P.call now c s) channel = P.multiplier t s channel ∨
    P.multiplier t (P.call now c s) channel = S.aimdUp (P.multiplier now s channel) ∨
    P.multiplier t (P.call now c s) channel = PollSettings.aimdDown (P.multiplier now s channel)
  multiplier_reset : ∀ now s t channel includeSamples,
    P.multiplier t (P.call now (.reset channel includeSamples) s) channel = 1
  paused_limited : ∀ now s t channel, ∀ r : ℚ≥0, r ≠ 0 →
    P.pausedFor t (P.call now (.noteRateLimited channel (some r)) s) channel =
      max 0 ((now : ℚ) + r - t)
  paused_reset : ∀ now s t channel includeSamples,
    P.pausedFor t (P.call now (.reset channel includeSamples) s) channel = 0
  paused_call : ∀ now c s t channel, ¬ PollingCall.Repauses channel c →
    P.pausedFor t (P.call now c s) channel = P.pausedFor t s channel
  stats_limited : ∀ now s t channel channel' retryAfter,
    P.stats t (P.call now (.noteRateLimited channel retryAfter) s) channel' =
      P.stats t s channel'

namespace MemoryPolling

variable {S : PollSettings} {s : MemoryPolling} {now : ℚ≥0} {channel channel' : String}

theorem multiplierOf_noteRateLimited (retryAfter : Option ℚ≥0) :
    (noteRateLimited S s now channel retryAfter).multiplierOf channel' =
      if channel' = channel then S.aimdUp (s.multiplierOf channel)
      else s.multiplierOf channel' := by
  have hmultiplier : (noteRateLimited S s now channel retryAfter).multiplier =
      Function.update s.multiplier channel (some (S.aimdUp (s.multiplierOf channel))) := by
    unfold noteRateLimited
    cases retryAfter.filter (· ≠ 0) with
    | none => rfl
    | some r => rfl
  rw [multiplierOf, hmultiplier, Function.update_apply]
  split
  · rfl
  · rfl

theorem multiplierOf_noteCleanPeriod : (s.noteCleanPeriod channel).multiplierOf channel' =
    if channel' = channel then PollSettings.aimdDown (s.multiplierOf channel)
    else s.multiplierOf channel' := by
  rw [multiplierOf, noteCleanPeriod]
  simp only [Function.update_apply]
  split
  · rfl
  · rfl

/-- A decay is a clean period, or nothing. -/
theorem decayIfClean_cases (quietSeconds : ℚ) : s.decayIfClean now channel quietSeconds = s ∨
    s.decayIfClean now channel quietSeconds = s.noteCleanPeriod channel := by
  unfold decayIfClean
  cases s.lastRateLimited channel with
  | none => exact .inr rfl
  | some last =>
      by_cases h : now - last < quietSeconds
      · exact .inl (if_pos h)
      · exact .inr (if_neg h)

theorem multiplierOf_call (c : PollingCall) :
    (call S now c s).multiplierOf channel' = 1 ∨
      (call S now c s).multiplierOf channel' = s.multiplierOf channel' ∨
      (call S now c s).multiplierOf channel' = S.aimdUp (s.multiplierOf channel') ∨
      (call S now c s).multiplierOf channel' = PollSettings.aimdDown (s.multiplierOf channel') := by
  have hclean : ∀ ch, (s.noteCleanPeriod ch).multiplierOf channel' = s.multiplierOf channel' ∨
      (s.noteCleanPeriod ch).multiplierOf channel' =
        PollSettings.aimdDown (s.multiplierOf channel') := by
    intro ch
    rw [multiplierOf_noteCleanPeriod]
    by_cases hc : channel' = ch
    · exact .inr (by rw [if_pos hc, hc])
    · exact .inl (if_neg hc)
  cases c with
  | recordDuration ch seconds => exact .inr (.inl rfl)
  | stats ch => exact .inr (.inl rfl)
  | noteRateLimited ch retryAfter =>
      rw [call, multiplierOf_noteRateLimited]
      by_cases hc : channel' = ch
      · exact .inr (.inr (.inl (by rw [if_pos hc, hc])))
      · exact .inr (.inl (if_neg hc))
  | noteCleanPeriod ch => exact .inr ((hclean ch).imp_right .inr)
  | decayIfClean ch quietSeconds =>
      rcases @decayIfClean_cases s now ch quietSeconds with h | h
      · exact .inr (.inl (by rw [call, h]))
      · rw [call, h]
        exact .inr ((hclean ch).imp_right .inr)
  | reset ch includeSamples =>
      by_cases hc : channel' = ch
      · exact .inl (by simp [call, reset, multiplierOf, hc])
      · exact .inr (.inl (by simp [call, reset, multiplierOf, hc]))

theorem pauseUntil_noteRateLimited (retryAfter : Option ℚ≥0) :
    (noteRateLimited S s now channel retryAfter).pauseUntil =
      match retryAfter.filter (· ≠ 0) with
      | some r => Function.update s.pauseUntil channel (some (now + r))
      | none => s.pauseUntil := by
  unfold noteRateLimited
  cases retryAfter.filter (· ≠ 0) with
  | none => rfl
  | some r => rfl

theorem pausedFor_limited {t r : ℚ≥0} (hr : r ≠ 0) :
    (call S now (.noteRateLimited channel (some r)) s).pausedFor t channel =
      max 0 ((now : ℚ) + r - t) := by
  have hsome : (some r).filter (· ≠ 0) = some r := by simp [hr]
  rw [pausedFor, call, pauseUntil_noteRateLimited, hsome]
  simp

theorem pausedFor_call {c : PollingCall} (h : ¬ c.Repauses channel) (t : ℚ≥0) :
    (call S now c s).pausedFor t channel = s.pausedFor t channel := by
  cases c with
  | recordDuration ch seconds => rfl
  | stats ch => rfl
  | noteRateLimited ch retryAfter =>
      rw [pausedFor, call, pauseUntil_noteRateLimited]
      cases hf : retryAfter.filter (· ≠ 0) with
      | none => rfl
      | some r =>
          obtain ⟨hsome, hr⟩ := Option.filter_eq_some_iff.mp hf
          have hne : channel ≠ ch := fun hc => h ⟨hc.symm, r, hsome, by simpa using hr⟩
          simp [pausedFor, Function.update_of_ne hne]
  | noteCleanPeriod ch => rfl
  | decayIfClean ch quietSeconds =>
      rcases @decayIfClean_cases s now ch quietSeconds with hd | hd
      · rw [call, hd]
      · rw [call, hd]
        rfl
  | reset ch includeSamples =>
      have hne : channel ≠ ch := fun hc => h hc.symm
      simp [call, reset, pausedFor, Function.update_of_ne hne]

theorem lawful (S : PollSettings) : LawfulPolling S (controller S) where
  multiplier_start _ _ := rfl
  paused_start t _ := max_eq_left (by simp [controller])
  paused_nonneg _ _ _ := le_max_left _ _
  multiplier_call _ c _ _ _ := multiplierOf_call c
  multiplier_reset _ s _ channel includeSamples := by
    simp [controller, call, reset, multiplierOf]
  paused_limited _ _ _ _ _ hr := pausedFor_limited hr
  paused_reset _ s t channel includeSamples := by
    simp [controller, call, reset, pausedFor]
  paused_call _ _ _ t _ h := pausedFor_call h t
  stats_limited _ s _ channel channel' retryAfter := by
    simp only [controller, call, noteRateLimited]
    cases retryAfter.filter (· ≠ 0) with
    | none => rfl
    | some r => rfl

end MemoryPolling

theorem Expirable.live_some {α : Type} (value : α) (expiresAt : ℚ) (now : ℚ≥0) :
    Expirable.live (some ⟨value, expiresAt⟩) now =
      if (now : ℚ) < expiresAt then some value else none := by
  by_cases h : (now : ℚ) < expiresAt
  · simp [Expirable.live, Option.filter_some, h]
  · simp [Expirable.live, Option.filter_some, h]

namespace RedisPolling

variable {S : PollSettings} {s : RedisPolling} {now t : ℚ≥0} {channel channel' : String}

/-- The multiplier after one was set: that one until it expires, and then one. -/
theorem multiplierOf_set {v e : ℚ} (h : s.aimd channel = some ⟨v, e⟩) :
    s.multiplierOf t channel = v ∨ s.multiplierOf t channel = 1 := by
  rw [multiplierOf, h, Expirable.live_some]
  split
  · exact .inl rfl
  · exact .inr rfl

theorem aimd_noteRateLimited (retryAfter : Option ℚ≥0) :
    (noteRateLimited S s now channel retryAfter).aimd = Function.update s.aimd channel
      (some ⟨S.aimdUp (s.multiplierOf now channel), now + histTtlSeconds⟩) := by
  unfold noteRateLimited
  dsimp only
  split
  · rfl
  · rfl

theorem decayIfClean_cases (quietSeconds : ℚ) : s.decayIfClean now channel quietSeconds = s ∨
    s.decayIfClean now channel quietSeconds = s.noteCleanPeriod now channel := by
  unfold decayIfClean
  cases Expirable.live (s.rl channel) now with
  | none => exact .inr rfl
  | some last =>
      by_cases h : now - last < quietSeconds
      · exact .inl (if_pos h)
      · exact .inr (if_neg h)

theorem fillCache_aimd : (fillCache S s now channel).aimd = s.aimd := by
  unfold fillCache
  split
  · rfl
  · rfl

theorem fillCache_pause : (fillCache S s now channel).pause = s.pause := by
  unfold fillCache
  split
  · rfl
  · rfl

theorem multiplierOf_call (c : PollingCall) :
    (call S now c s).multiplierOf t channel' = 1 ∨
      (call S now c s).multiplierOf t channel' = s.multiplierOf t channel' ∨
      (call S now c s).multiplierOf t channel' = S.aimdUp (s.multiplierOf now channel') ∨
      (call S now c s).multiplierOf t channel' =
        PollSettings.aimdDown (s.multiplierOf now channel') := by
  have hclean : ∀ ch, (s.noteCleanPeriod now ch).multiplierOf t channel' = 1 ∨
      (s.noteCleanPeriod now ch).multiplierOf t channel' = s.multiplierOf t channel' ∨
      (s.noteCleanPeriod now ch).multiplierOf t channel' =
        PollSettings.aimdDown (s.multiplierOf now channel') := by
    intro ch
    by_cases hc : channel' = ch
    · subst hc
      have hset := @multiplierOf_set (s.noteCleanPeriod now channel') t channel' _ _
        (Function.update_self _ _ _)
      exact hset.elim (fun h => .inr (.inr h)) .inl
    · exact .inr (.inl (by simp [noteCleanPeriod, multiplierOf, Function.update_of_ne hc]))
  cases c with
  | recordDuration ch seconds => exact .inr (.inl rfl)
  | stats ch => exact .inr (.inl (by rw [call, multiplierOf, fillCache_aimd, multiplierOf]))
  | noteRateLimited ch retryAfter =>
      by_cases hc : channel' = ch
      · subst hc
        have hset := @multiplierOf_set (noteRateLimited S s now channel' retryAfter) t channel' _ _
          (by rw [aimd_noteRateLimited, Function.update_self])
        exact hset.elim (fun h => .inr (.inr (.inl h))) .inl
      · refine .inr (.inl ?_)
        rw [call, multiplierOf, aimd_noteRateLimited, Function.update_of_ne hc, multiplierOf]
  | noteCleanPeriod ch => exact (hclean ch).imp_right (·.imp_right .inr)
  | decayIfClean ch quietSeconds =>
      rcases @decayIfClean_cases s now ch quietSeconds with h | h
      · exact .inr (.inl (by rw [call, h]))
      · rw [call, h]
        exact (hclean ch).imp_right (·.imp_right .inr)
  | reset ch includeSamples =>
      by_cases hc : channel' = ch
      · exact .inl (by simp [call, reset, multiplierOf, hc, Expirable.live])
      · exact .inr (.inl (by simp [call, reset, multiplierOf, hc]))

theorem pause_noteRateLimited (retryAfter : Option ℚ≥0) :
    (noteRateLimited S s now channel retryAfter).pause =
      if 0 < retryAfter.getD 0 then
        Function.update s.pause channel (some ⟨now + (retryAfter.getD 0 : ℚ≥0),
          now + (max 60 (⌊((retryAfter.getD 0 : ℚ≥0) : ℚ)⌋ + 60) : ℤ)⟩)
      else s.pause := by
  have hmax : max (0 : ℚ) ((retryAfter.getD 0 : ℚ≥0) : ℚ) = (retryAfter.getD 0 : ℚ≥0) :=
    max_eq_right (NNRat.cast_nonneg _)
  unfold noteRateLimited
  simp only [hmax, NNRat.cast_pos]
  split
  · rfl
  · rfl

/-- The key of a pause is there at least as long as the pause. -/
theorem pausedFor_limited {r : ℚ≥0} (hr : r ≠ 0) :
    (call S now (.noteRateLimited channel (some r)) s).pausedFor t channel =
      max 0 ((now : ℚ) + r - t) := by
  have hpos : 0 < r := pos_of_ne_zero hr
  have hfloor := Int.lt_floor_add_one (r : ℚ)
  have hkey : (⌊(r : ℚ)⌋ : ℚ) + 60 ≤ (max 60 (⌊(r : ℚ)⌋ + 60) : ℤ) := by
    exact_mod_cast le_max_right _ _
  rw [pausedFor, call, pause_noteRateLimited, Option.getD_some, if_pos hpos, Function.update_self,
    Expirable.live_some]
  by_cases hlive : (t : ℚ) < now + (max 60 (⌊(r : ℚ)⌋ + 60) : ℤ)
  · rw [if_pos hlive]
  · rw [if_neg hlive]
    exact (max_eq_left (by linarith)).symm

theorem pausedFor_call {c : PollingCall} (h : ¬ c.Repauses channel) (t : ℚ≥0) :
    (call S now c s).pausedFor t channel = s.pausedFor t channel := by
  cases c with
  | recordDuration ch seconds => rfl
  | stats ch => rw [call, pausedFor, fillCache_pause, pausedFor]
  | noteRateLimited ch retryAfter =>
      rw [pausedFor, call, pause_noteRateLimited]
      by_cases hpos : 0 < retryAfter.getD 0
      · have hne : channel ≠ ch := by
          rintro rfl
          refine h ⟨rfl, retryAfter.getD 0, ?_, hpos.ne'⟩
          cases retryAfter with
          | none => exact absurd hpos (lt_irrefl _)
          | some r => rfl
        rw [if_pos hpos, Function.update_of_ne hne, pausedFor]
      · rw [if_neg hpos, pausedFor]
  | noteCleanPeriod ch => rfl
  | decayIfClean ch quietSeconds =>
      rcases @decayIfClean_cases s now ch quietSeconds with hd | hd
      · rw [call, hd]
      · rw [call, hd]
        rfl
  | reset ch includeSamples =>
      have hne : channel ≠ ch := fun hc => h hc.symm
      simp [call, reset, pausedFor, Function.update_of_ne hne]

theorem lawful (S : PollSettings) : LawfulPolling S (controller S) where
  multiplier_start _ _ := rfl
  paused_start _ _ := rfl
  paused_nonneg t s channel := by
    simp only [controller, pausedFor]
    split
    · exact le_rfl
    · exact le_max_left _ _
  multiplier_call _ c _ _ _ := multiplierOf_call c
  multiplier_reset _ s _ channel includeSamples := by
    simp [controller, call, reset, multiplierOf, Expirable.live]
  paused_limited _ _ _ _ _ hr := pausedFor_limited hr
  paused_reset _ s t channel includeSamples := by
    simp [controller, call, reset, pausedFor, Expirable.live]
  paused_call _ _ _ t _ h := pausedFor_call h t
  stats_limited _ s _ channel channel' retryAfter := by
    simp only [controller, call, noteRateLimited]
    split
    · rfl
    · rfl

end RedisPolling

/-! ### The bounds -/

/-- Settings whose bounds are in order. -/
structure TunedSettings extends PollSettings where
  minimum_pos : 0 < minimum
  minimum_le : minimum ≤ maximum
  initial_pos : 0 < initial
  base_ge : 1 / 1000000 ≤ base
  base_le : base ≤ maximum

namespace TunedSettings

variable (S : TunedSettings) {v w : ℚ}

theorem base_pos : 0 < S.base := lt_of_lt_of_le (by norm_num) S.base_ge

theorem le_clamp (v : ℚ) : S.minimum ≤ S.clamp v := le_max_left _ _

theorem clamp_le (v : ℚ) : S.clamp v ≤ S.maximum := max_le S.minimum_le (min_le_left _ _)

theorem clamp_mono (h : v ≤ w) : S.clamp v ≤ S.clamp w :=
  max_le_max_left _ (min_le_min_left _ h)

/-- What is in the bounds is left alone. -/
theorem clamp_eq (hv : S.minimum ≤ v) (hv' : v ≤ S.maximum) : S.clamp v = v := by
  rw [PollSettings.clamp, min_eq_right hv', max_eq_right hv]

theorem one_le_cap : 1 ≤ S.maximum / S.base := (one_le_div S.base_pos).mpr S.base_le

theorem cap_eq : S.maximum / max S.base (1 / 1000000) = S.maximum / S.base := by
  rw [max_eq_left S.base_ge]

theorem aimdUp_mem (v : ℚ) : 1 ≤ S.aimdUp v ∧ S.aimdUp v ≤ S.maximum / S.base := by
  rw [PollSettings.aimdUp, S.cap_eq]
  exact ⟨le_min S.one_le_cap (le_max_left _ _), min_le_left _ _⟩

theorem aimdDown_mem (hv : 1 ≤ v) (hv' : v ≤ S.maximum / S.base) :
    1 ≤ PollSettings.aimdDown v ∧ PollSettings.aimdDown v ≤ S.maximum / S.base := by
  have hdown : v * (9 / 10) ≤ v := by linarith
  exact ⟨le_max_left _ _, max_le S.one_le_cap (hdown.trans hv')⟩

theorem computeInterval_mem (elapsed : ℚ) (stats : PollStats) (firstPoll : Bool) :
    S.minimum ≤ S.computeInterval elapsed stats firstPoll ∧
      S.computeInterval elapsed stats firstPoll ≤ S.maximum := by
  unfold PollSettings.computeInterval
  split
  · exact ⟨S.le_clamp _, S.clamp_le _⟩
  · split
    · exact ⟨S.le_clamp _, S.clamp_le _⟩
    · exact ⟨S.le_clamp _, S.clamp_le _⟩

/-- With the statistics warm, a longer wait is no shorter an interval. -/
theorem computeInterval_mono {elapsed elapsed' : ℚ} (h : elapsed ≤ elapsed') {stats : PollStats}
    (hwarm : stats.warm = true) (firstPoll : Bool) :
    S.computeInterval elapsed stats firstPoll ≤ S.computeInterval elapsed' stats firstPoll := by
  cases firstPoll with
  | true => simp [PollSettings.computeInterval, hwarm]
  | false =>
      have hcurve : ∀ e, S.computeInterval e stats false =
          S.clamp (S.base * 2 ^ (min ⌊max 0 e / max stats.p50 S.minimum⌋ 8).toNat) := by
        intro e
        simp [PollSettings.computeInterval, hwarm]
      have hp50 : 0 < max stats.p50 S.minimum := lt_max_of_lt_right S.minimum_pos
      have hfloor : ⌊max 0 elapsed / max stats.p50 S.minimum⌋ ≤
          ⌊max 0 elapsed' / max stats.p50 S.minimum⌋ :=
        Int.floor_mono (div_le_div_of_nonneg_right (max_le_max_left _ h) hp50.le)
      have hpow : (2 : ℚ) ^ (min ⌊max 0 elapsed / max stats.p50 S.minimum⌋ 8).toNat ≤
          2 ^ (min ⌊max 0 elapsed' / max stats.p50 S.minimum⌋ 8).toNat :=
        pow_le_pow_right₀ one_le_two (Int.toNat_le_toNat (min_le_min_right _ hfloor))
      rw [hcurve, hcurve]
      exact S.clamp_mono (mul_le_mul_of_nonneg_left hpow S.base_pos.le)

end TunedSettings

/-- What adaptive polling keeps to, in a state of a controller. -/
structure AdaptiveBounds (S : PollSettings) (P : PollingController) (s : P.State) : Prop where
  multiplier_mem : ∀ now channel,
    1 ≤ P.multiplier now s channel ∧ P.multiplier now s channel ≤ S.maximum / S.base
  minimum_le_base : ∀ now channel elapsed firstPoll,
    S.minimum ≤ P.baseInterval S now s channel elapsed firstPoll
  base_le_next : ∀ now channel elapsed firstPoll,
    P.baseInterval S now s channel elapsed firstPoll ≤
      P.nextInterval S now s channel elapsed firstPoll
  next_le_maximum : ∀ now channel elapsed firstPoll,
    P.nextInterval S now s channel elapsed firstPoll ≤ S.maximum
  /-- A 429 leaves the base interval as it is. -/
  base_limited : ∀ now channel retryAfter t channel' elapsed firstPoll,
    P.baseInterval S t (P.call now (.noteRateLimited channel retryAfter) s) channel' elapsed
        firstPoll =
      P.baseInterval S t s channel' elapsed firstPoll
  monotone : ∀ now channel, (P.stats now s channel).warm = true →
    ∀ elapsed elapsed' firstPoll, elapsed ≤ elapsed' →
      P.baseInterval S now s channel elapsed firstPoll ≤
          P.baseInterval S now s channel elapsed' firstPoll ∧
        P.nextInterval S now s channel elapsed firstPoll ≤
          P.nextInterval S now s channel elapsed' firstPoll
  after_reset : ∀ now channel includeSamples t,
    P.multiplier t (P.call now (.reset channel includeSamples) s) channel = 1 ∧
      P.pausedFor t (P.call now (.reset channel includeSamples) s) channel = 0

namespace LawfulPolling

variable {S : TunedSettings} {P : PollingController}

/-- A call keeps the multipliers in their bounds. -/
theorem multiplier_mem_call (hP : LawfulPolling S.toPollSettings P) {s : P.State}
    (h : ∀ t channel, 1 ≤ P.multiplier t s channel ∧ P.multiplier t s channel ≤ S.maximum / S.base)
    (now : ℚ≥0) (c : PollingCall) : ∀ t channel, 1 ≤ P.multiplier t (P.call now c s) channel ∧
      P.multiplier t (P.call now c s) channel ≤ S.maximum / S.base := by
  intro t channel
  rcases hP.multiplier_call now c s t channel with hm | hm | hm | hm
  · rw [hm]
    exact ⟨le_rfl, S.one_le_cap⟩
  · rw [hm]
    exact h t channel
  · rw [hm]
    exact S.aimdUp_mem _
  · rw [hm]
    exact S.aimdDown_mem (h now channel).1 (h now channel).2

theorem multiplier_mem_after (hP : LawfulPolling S.toPollSettings P)
    (history : List (ℚ≥0 × PollingCall)) : ∀ t channel,
      1 ≤ P.multiplier t (P.after history) channel ∧
        P.multiplier t (P.after history) channel ≤ S.maximum / S.base := by
  induction history using List.reverseRecOn with
  | nil =>
      intro t channel
      have hstart : P.multiplier t (P.after []) channel = 1 := hP.multiplier_start t channel
      rw [hstart]
      exact ⟨le_rfl, S.one_le_cap⟩
  | append_singleton history e ih =>
      rw [PollingController.after, List.foldl_append]
      exact hP.multiplier_mem_call ih e.1 e.2

theorem adaptiveBounds (hP : LawfulPolling S.toPollSettings P)
    (history : List (ℚ≥0 × PollingCall)) :
    AdaptiveBounds S.toPollSettings P (P.after history) := by
  have hmem := hP.multiplier_mem_after history
  have hbase := fun now channel elapsed firstPoll =>
    S.computeInterval_mem elapsed (P.stats now (P.after history) channel) firstPoll
  have hmono : ∀ now channel, (P.stats now (P.after history) channel).warm = true →
      ∀ elapsed elapsed' firstPoll, elapsed ≤ elapsed' →
        P.baseInterval S.toPollSettings now (P.after history) channel elapsed firstPoll ≤
          P.baseInterval S.toPollSettings now (P.after history) channel elapsed' firstPoll :=
    fun _ _ hwarm _ _ firstPoll hle => S.computeInterval_mono hle hwarm firstPoll
  refine ⟨hmem, fun now channel elapsed firstPoll => (hbase now channel elapsed firstPoll).1, ?_,
    fun _ _ _ _ => S.clamp_le _, ?_, ?_, ?_⟩
  · -- a multiplier of one at least makes the interval no shorter, and it was in its bounds
    intro now channel elapsed firstPoll
    obtain ⟨hmin, hmax⟩ := hbase now channel elapsed firstPoll
    have hgrow : P.baseInterval S.toPollSettings now (P.after history) channel elapsed firstPoll ≤
        P.baseInterval S.toPollSettings now (P.after history) channel elapsed firstPoll *
          P.multiplier now (P.after history) channel :=
      le_mul_of_one_le_right (S.minimum_pos.le.trans hmin) (hmem now channel).1
    calc P.baseInterval S.toPollSettings now (P.after history) channel elapsed firstPoll
        = S.clamp (P.baseInterval S.toPollSettings now (P.after history) channel elapsed
            firstPoll) := (S.clamp_eq hmin hmax).symm
      _ ≤ P.nextInterval S.toPollSettings now (P.after history) channel elapsed firstPoll :=
          S.clamp_mono hgrow
  · intro now channel retryAfter t channel' elapsed firstPoll
    rw [PollingController.baseInterval, hP.stats_limited, PollingController.baseInterval]
  · intro now channel hwarm elapsed elapsed' firstPoll hle
    have hle' := hmono now channel hwarm elapsed elapsed' firstPoll hle
    have hone := zero_le_one.trans (hmem now channel).1
    exact ⟨hle', S.clamp_mono (mul_le_mul_of_nonneg_right hle' hone)⟩
  · exact fun now channel includeSamples t =>
      ⟨hP.multiplier_reset _ _ _ _ _, hP.paused_reset _ _ _ _ _⟩

end LawfulPolling

/-- **Both controllers keep to the bounds, after any calls.** -/
theorem polling_bounds (S : TunedSettings) (history : List (ℚ≥0 × PollingCall)) :
    AdaptiveBounds S.toPollSettings (MemoryPolling.controller S.toPollSettings)
        ((MemoryPolling.controller S.toPollSettings).after history) ∧
      AdaptiveBounds S.toPollSettings (RedisPolling.controller S.toPollSettings)
        ((RedisPolling.controller S.toPollSettings).after history) :=
  ⟨(MemoryPolling.lawful _).adaptiveBounds history, (RedisPolling.lawful _).adaptiveBounds history⟩

/-- The settings of a gateway that sets none. -/
def TunedSettings.default : TunedSettings where
  minimum_pos := by norm_num
  minimum_le := by norm_num
  initial_pos := by norm_num
  base_ge := by norm_num
  base_le := by norm_num

/-- A duration of 25 seconds, and two 429. -/
def limitedTwice : List (ℚ≥0 × PollingCall) :=
  [(0, .recordDuration "midjourney" 25), (1, .noteRateLimited "midjourney" (some 20)),
    (31, .noteRateLimited "midjourney" none)]

/-- The multiplier is four then, of the twenty it may be, and the next interval no longer than a
minute. -/
theorem limitedTwice_bounds :
    (MemoryPolling.controller {}).multiplier 31 ((MemoryPolling.controller {}).after limitedTwice)
        "midjourney" = 4 ∧
      AdaptiveBounds {} (MemoryPolling.controller {})
        ((MemoryPolling.controller {}).after limitedTwice) ∧
      (RedisPolling.controller {}).multiplier 31 ((RedisPolling.controller {}).after limitedTwice)
        "midjourney" = 4 ∧
      (RedisPolling.controller {}).nextInterval {} 31
        ((RedisPolling.controller {}).after limitedTwice) "midjourney" 10 false ≤ 60 := by
  obtain ⟨hmemory, hredis⟩ := polling_bounds .default limitedTwice
  exact ⟨by decide +kernel, hmemory, by decide +kernel,
    hredis.next_le_maximum 31 "midjourney" 10 false⟩

end AsyncGateway
