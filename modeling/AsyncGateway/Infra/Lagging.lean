import AsyncGateway.Infra.Pauses

/-!
# Infra — the controller in Redis, against the one of one process

The controller in Redis keeps the statistics of a channel for five minutes, and every key of it
expires.  While no call is a week old (`Recent`) its multipliers and pauses are those of the
controller of one process after the same calls, and its statistics are those this one had after an
earlier part of the calls, of which all later ones are younger than five minutes
(`redis_lags_memory`).
-/

namespace AsyncGateway

open RedisPolling (histTtlSeconds pctCacheSeconds rlTtlSeconds)

/-- The history of calls up to `now`, of which none is a week old, and which ask for no longer
quiet time than the settings. -/
structure Recent (S : PollSettings) (history : List PollingEvent) (now : ℚ≥0) : Prop where
  ordered : (history.map Prod.fst).Pairwise (· ≤ ·)
  past : ∀ e ∈ history, e.1 ≤ now
  week : ∀ e ∈ history, (now : ℚ) < e.1 + histTtlSeconds
  quiet : ∀ e ∈ history, ∀ channel quietSeconds, e.2 = .decayIfClean channel quietSeconds →
    quietSeconds ≤ S.aimdQuietSeconds

/-- The statistics are cached since some call: those after the calls before it. -/
def Cached (S : PollSettings) (history : List PollingEvent) (channel : String)
    (k : Expirable PollStats) : Prop :=
  ∃ before after since, history = before ++ after ∧ since ∈ history.map Prod.fst ∧
    k.expiresAt = since + pctCacheSeconds ∧
    (∀ e ∈ after, since ≤ e.1 ∧ e.2 ≠ .reset channel true) ∧
    k.value = S.statsOf (((MemoryPolling.controller S).after before).buckets channel)

/-- The keys in Redis have what the controller of one process has, and those of the history are
there until `now`. -/
structure Lags (S : PollSettings) (now : ℚ≥0) (history : List PollingEvent) (s : RedisPolling)
    (m : MemoryPolling) : Prop where
  multiplier : ∀ channel, (s.aimd channel).map (·.value) = m.multiplier channel
  multiplier_there : ∀ channel k, s.aimd channel = some k → (now : ℚ) < k.expiresAt
  buckets : ∀ channel, ((s.hist channel).map (·.value)).getD [] = m.buckets channel
  buckets_there : ∀ channel k, s.hist channel = some k → (now : ℚ) < k.expiresAt
  limited : ∀ channel, (s.rl channel).map (·.value) = m.lastRateLimited channel
  limited_there : ∀ channel k, s.rl channel = some k → k.expiresAt = k.value + rlTtlSeconds S
  pause : ∀ channel, (s.pause channel).map (·.value) = m.pauseUntil channel
  pause_there : ∀ channel k, s.pause channel = some k → k.value ≤ k.expiresAt
  cached : ∀ channel k, s.pct channel = some k → Cached S history channel k

theorem Expirable.live_of_lt {α : Type} {key : Option (Expirable α)} {now : ℚ≥0}
    (h : ∀ k, key = some k → (now : ℚ) < k.expiresAt) :
    Expirable.live key now = key.map (·.value) := by
  cases key with
  | none => rfl
  | some k => rw [Expirable.live, Option.filter_some, if_pos (decide_eq_true (h k rfl))]

/-- What holds of the keys of other channels and of the new one holds of all. -/
theorem there_update {α : Type} {keys : String → Option (Expirable α)} {channel : String}
    {Q : Expirable α → Prop} {new : Expirable α} (hnew : Q new)
    (h : ∀ channel k, keys channel = some k → Q k) (channel' : String) (k : Expirable α)
    (hk : Function.update keys channel (some new) channel' = some k) : Q k := by
  refine (Function.forall_update_iff keys fun _ key => ∀ k, key = some k → Q k).mpr
    ⟨fun k hk => ?_, fun channel' _ => h channel'⟩ channel' k hk
  exact Option.some.inj hk ▸ hnew

theorem values_update {α : Type} {keys : String → Option (Expirable α)} {f : String → Option α}
    (h : ∀ channel, (keys channel).map (·.value) = f channel) (channel : String)
    (new : Option (Expirable α)) (channel' : String) :
    (Function.update keys channel new channel').map (·.value) =
      Function.update f channel (new.map (·.value)) channel' := by
  by_cases hc : channel' = channel
  · subst hc
    rw [Function.update_self, Function.update_self]
  · rw [Function.update_of_ne hc, Function.update_of_ne hc, h]

/-- The time of the last 429 is there as long as the quiet time the settings ask for. -/
theorem quiet_le_rlTtlSeconds (S : PollSettings) : S.aimdQuietSeconds ≤ rlTtlSeconds S := by
  have h600 : (600 : ℚ) ≤ rlTtlSeconds S := by
    exact_mod_cast le_max_left (600 : ℤ) ⌊S.aimdQuietSeconds * 3⌋
  have hfloor : ((⌊S.aimdQuietSeconds * 3⌋ : ℤ) : ℚ) ≤ rlTtlSeconds S := by
    exact_mod_cast le_max_right (600 : ℤ) ⌊S.aimdQuietSeconds * 3⌋
  have hlt := Int.lt_floor_add_one (S.aimdQuietSeconds * 3)
  by_cases h : S.aimdQuietSeconds ≤ 600
  · exact h.trans h600
  · linarith

section Cached

variable {S : PollSettings} {history : List PollingEvent} {channel : String}
  {k : Expirable PollStats}

/-- Another call leaves the cached statistics where they were. -/
theorem Cached.concat (h : Cached S history channel k) {e : PollingEvent}
    (hpast : ∀ e' ∈ history, e'.1 ≤ e.1) (he : e.2 ≠ .reset channel true) :
    Cached S (history ++ [e]) channel k := by
  obtain ⟨before, after, since, rfl, hmem, hexpires, hafter, hvalue⟩ := h
  obtain ⟨e', he', hsince⟩ := List.mem_map.mp hmem
  refine ⟨before, after ++ [e], since, List.append_assoc _ _ _, ?_, hexpires, ?_, hvalue⟩
  · rw [List.map_append]
    exact List.mem_append_left _ hmem
  · refine List.forall_mem_append.mpr ⟨hafter, List.forall_mem_singleton.mpr ⟨?_, he⟩⟩
    exact hsince ▸ hpast e' he'

end Cached

namespace Lags

variable {S : PollSettings} {now t : ℚ≥0} {history : List PollingEvent} {s : RedisPolling}
  {m : MemoryPolling} {channel : String}

theorem start (S : PollSettings) (now : ℚ≥0) : Lags S now [] {} {} where
  multiplier _ := rfl
  multiplier_there _ _ h := nomatch h
  buckets _ := rfl
  buckets_there _ _ h := nomatch h
  limited _ := rfl
  limited_there _ _ h := nomatch h
  pause _ := rfl
  pause_there _ _ h := nomatch h
  cached _ _ h := nomatch h

/-! ### What is read before `now` -/

theorem multiplierOf (h : Lags S now history s m) (ht : t ≤ now) (channel : String) :
    s.multiplierOf t channel = m.multiplierOf channel := by
  have hle : (t : ℚ) ≤ now := by exact_mod_cast ht
  rw [RedisPolling.multiplierOf, MemoryPolling.multiplierOf, ← h.multiplier,
    Expirable.live_of_lt fun k hk => hle.trans_lt (h.multiplier_there channel k hk)]

theorem histOf (h : Lags S now history s m) (ht : t ≤ now) (channel : String) :
    s.histOf t channel = m.buckets channel := by
  have hle : (t : ℚ) ≤ now := by exact_mod_cast ht
  rw [RedisPolling.histOf, ← h.buckets,
    Expirable.live_of_lt fun k hk => hle.trans_lt (h.buckets_there channel k hk)]

/-- A pause whose key is gone is over. -/
theorem pausedFor (h : Lags S now history s m) (channel : String) :
    s.pausedFor t channel = m.pausedFor t channel := by
  rw [RedisPolling.pausedFor, MemoryPolling.pausedFor, ← h.pause]
  cases hk : s.pause channel with
  | none =>
      have hneg : (0 : ℚ) - t ≤ 0 := by simp
      exact (max_eq_left hneg).symm
  | some k =>
      rw [Expirable.live_some]
      by_cases hlive : (t : ℚ) < k.expiresAt
      · rw [if_pos hlive]
        rfl
      · rw [if_neg hlive]
        have hle := h.pause_there channel k hk
        refine (max_eq_left ?_).symm
        change k.value - t ≤ 0
        linarith

/-! ### What a call does -/

/-- The keys in Redis after a 429, but for its pause. -/
def limitedRedis (S : PollSettings) (s : RedisPolling) (t : ℚ≥0) (channel : String) :
    RedisPolling :=
  { s with
    aimd := Function.update s.aimd channel
      (some ⟨S.aimdUp (s.multiplierOf t channel), t + histTtlSeconds⟩)
    rl := Function.update s.rl channel (some ⟨t, t + rlTtlSeconds S⟩) }

/-- The controller of one process after a 429, but for its pause. -/
def limitedMemory (S : PollSettings) (m : MemoryPolling) (t : ℚ≥0) (channel : String) :
    MemoryPolling :=
  { m with
    multiplier := Function.update m.multiplier channel (some (S.aimdUp (m.multiplierOf channel)))
    lastRateLimited := Function.update m.lastRateLimited channel (some (t : ℚ)) }

section Calls

variable (h : Lags S now history s m) (ht : t ≤ now) (hweek : (now : ℚ) < t + histTtlSeconds)
  (hpast : ∀ e ∈ history, e.1 ≤ t)
include h ht hweek hpast

theorem recordDuration (seconds : ℚ) :
    Lags S now (history ++ [(t, .recordDuration channel seconds)])
      (s.recordDuration t channel seconds) (m.recordDuration channel seconds) :=
  { h with
    buckets := fun channel' => by
      by_cases hc : channel' = channel
      · subst hc
        simp [RedisPolling.recordDuration, MemoryPolling.recordDuration, h.histOf ht]
      · simp [RedisPolling.recordDuration, MemoryPolling.recordDuration,
          Function.update_of_ne hc, h.buckets]
    buckets_there := there_update hweek h.buckets_there
    cached := fun channel' k hk =>
      (h.cached channel' k hk).concat hpast fun hreset => nomatch hreset }

theorem noteCleanPeriod {call : PollingCall} (hcall : ∀ channel', call ≠ .reset channel' true) :
    Lags S now (history ++ [(t, call)]) (s.noteCleanPeriod t channel)
      (m.noteCleanPeriod channel) :=
  { h with
    multiplier := fun channel' => by
      rw [MemoryPolling.noteCleanPeriod, ← h.multiplierOf ht]
      exact values_update h.multiplier channel _ channel'
    multiplier_there := there_update hweek h.multiplier_there
    cached := fun channel' k hk => (h.cached channel' k hk).concat hpast (hcall channel') }

/-- A 429, but for its pause. -/
theorem limit (retryAfter : Option ℚ≥0) :
    Lags S now (history ++ [(t, .noteRateLimited channel retryAfter)])
      (limitedRedis S s t channel) (limitedMemory S m t channel) :=
  { h with
    multiplier := fun channel' => by
      rw [limitedMemory, ← h.multiplierOf ht]
      exact values_update h.multiplier channel _ channel'
    multiplier_there := there_update hweek h.multiplier_there
    limited := values_update h.limited channel _
    limited_there := there_update rfl h.limited_there
    cached := fun channel' k hk =>
      (h.cached channel' k hk).concat hpast fun hreset => nomatch hreset }

theorem noteRateLimited (retryAfter : Option ℚ≥0) :
    Lags S now (history ++ [(t, .noteRateLimited channel retryAfter)])
      (RedisPolling.noteRateLimited S s t channel retryAfter)
      (MemoryPolling.noteRateLimited S m t channel retryAfter) := by
  have hlimit : Lags S now (history ++ [(t, .noteRateLimited channel retryAfter)])
      (limitedRedis S s t channel) (limitedMemory S m t channel) :=
    h.limit ht hweek hpast retryAfter
  by_cases hpos : 0 < retryAfter.getD 0
  · obtain ⟨r, rfl⟩ : ∃ r, retryAfter = some r := by
      cases retryAfter with
      | none => exact absurd hpos (lt_irrefl _)
      | some r => exact ⟨r, rfl⟩
    have hr : 0 < r := hpos
    have hfloor := Int.lt_floor_add_one (r : ℚ)
    have hkey : (⌊(r : ℚ)⌋ : ℚ) + 60 ≤ (max 60 (⌊(r : ℚ)⌋ + 60) : ℤ) := by
      exact_mod_cast le_max_right _ _
    have hredis : RedisPolling.noteRateLimited S s t channel (some r) =
        { limitedRedis S s t channel with
          pause := Function.update s.pause channel
            (some ⟨t + r, t + (max 60 (⌊(r : ℚ)⌋ + 60) : ℤ)⟩) } := by
      simp [RedisPolling.noteRateLimited, limitedRedis, show (0 : ℚ) < r by exact_mod_cast hr]
    have hmemory : MemoryPolling.noteRateLimited S m t channel (some r) =
        { limitedMemory S m t channel with
          pauseUntil := Function.update m.pauseUntil channel (some ((t : ℚ) + r)) } := by
      simp [MemoryPolling.noteRateLimited, limitedMemory, Option.filter_some, hr.ne']
    rw [hredis, hmemory]
    refine { hlimit with
      pause := values_update h.pause channel _
      pause_there := there_update ?_ h.pause_there }
    change (t : ℚ) + r ≤ t + _
    linarith
  · have hzero : retryAfter.getD 0 = 0 := by simpa using hpos
    have hnone : retryAfter.filter (· ≠ 0) = none := by
      cases retryAfter with
      | none => rfl
      | some r =>
          obtain rfl : r = 0 := hzero
          rfl
    have hredis : RedisPolling.noteRateLimited S s t channel retryAfter =
        limitedRedis S s t channel := by
      simp [RedisPolling.noteRateLimited, limitedRedis, hzero]
    have hmemory : MemoryPolling.noteRateLimited S m t channel retryAfter =
        limitedMemory S m t channel := by
      simp only [MemoryPolling.noteRateLimited, limitedMemory, hnone]
    rw [hredis, hmemory]
    exact hlimit

/-- A key of a 429 that is gone is older than the quiet time. -/
theorem decayIfClean {quietSeconds : ℚ} (hquiet : quietSeconds ≤ S.aimdQuietSeconds) :
    Lags S now (history ++ [(t, .decayIfClean channel quietSeconds)])
      (s.decayIfClean t channel quietSeconds) (m.decayIfClean t channel quietSeconds) := by
  have stays : Lags S now (history ++ [(t, .decayIfClean channel quietSeconds)]) s m :=
    { h with
      cached := fun channel' k hk =>
        (h.cached channel' k hk).concat hpast fun hreset => nomatch hreset }
  have decays : Lags S now (history ++ [(t, .decayIfClean channel quietSeconds)])
      (s.noteCleanPeriod t channel) (m.noteCleanPeriod channel) :=
    h.noteCleanPeriod ht hweek hpast fun _ hreset => nomatch hreset
  rw [RedisPolling.decayIfClean, MemoryPolling.decayIfClean, ← h.limited]
  cases hk : s.rl channel with
  | none => exact decays
  | some k =>
      have hexpires := h.limited_there channel k hk
      rw [Expirable.live_some, Option.map_some]
      by_cases hnow : (t : ℚ) - k.value < quietSeconds
      · have hlive : (t : ℚ) < k.expiresAt := by
          have hrl := quiet_le_rlTtlSeconds S
          linarith
        simp only [if_pos hlive, if_pos hnow]
        exact stays
      · by_cases hlive : (t : ℚ) < k.expiresAt
        · simp only [if_pos hlive, if_neg hnow]
          exact decays
        · simp only [if_neg hlive, if_neg hnow]
          exact decays

omit ht hweek in
theorem reset (includeSamples : Bool) :
    Lags S now (history ++ [(t, .reset channel includeSamples)])
      (s.reset channel includeSamples) (m.reset channel includeSamples) := by
  have gone : ∀ {α : Type} {keys : String → Option (Expirable α)} {Q : Expirable α → Prop},
      (∀ channel k, keys channel = some k → Q k) → ∀ channel' k,
        Function.update keys channel none channel' = some k → Q k := by
    intro α keys Q hQ channel' k hk
    by_cases hc : channel' = channel
    · subst hc
      rw [Function.update_self] at hk
      cases hk
    · exact hQ channel' k ((Function.update_of_ne hc _ _).symm.trans hk)
  have kept : ∀ channel' k, (s.reset channel includeSamples).pct channel' = some k →
      s.pct channel' = some k ∧
        PollingCall.reset channel includeSamples ≠ .reset channel' true := by
    intro channel' k hk
    cases includeSamples with
    | false => exact ⟨hk, fun heq => nomatch heq⟩
    | true =>
        have hk' : Function.update s.pct channel none channel' = some k := hk
        by_cases hc : channel' = channel
        · subst hc
          rw [Function.update_self] at hk'
          cases hk'
        · rw [Function.update_of_ne hc] at hk'
          refine ⟨hk', fun heq => hc ?_⟩
          injection heq with hchannel
          exact hchannel.symm
  exact
    { multiplier := values_update h.multiplier channel none
      multiplier_there := gone h.multiplier_there
      buckets := fun channel' => by
        cases includeSamples with
        | false => exact h.buckets channel'
        | true =>
            change ((Function.update s.hist channel none channel').map _).getD [] =
              Function.update m.buckets channel [] channel'
            by_cases hc : channel' = channel
            · subst hc
              rw [Function.update_self, Function.update_self]
              rfl
            · rw [Function.update_of_ne hc, Function.update_of_ne hc, h.buckets]
      buckets_there := by
        cases includeSamples with
        | false => exact h.buckets_there
        | true => exact gone h.buckets_there
      limited := values_update h.limited channel none
      limited_there := gone h.limited_there
      pause := values_update h.pause channel none
      pause_there := gone h.pause_there
      cached := fun channel' k hk =>
        (h.cached channel' k (kept channel' k hk).1).concat hpast (kept channel' k hk).2 }

end Calls

/-- A reading of the statistics, which are cached. -/
theorem stats (h : Lags S now history s ((MemoryPolling.controller S).after history))
    (ht : t ≤ now) (hpast : ∀ e ∈ history, e.1 ≤ t) :
    Lags S now (history ++ [(t, .stats channel)]) (RedisPolling.fillCache S s t channel)
      ((MemoryPolling.controller S).after history) := by
  have older : ∀ channel' k, s.pct channel' = some k →
      Cached S (history ++ [(t, .stats channel)]) channel' k := fun channel' k hk =>
    (h.cached channel' k hk).concat hpast fun hreset => nomatch hreset
  unfold RedisPolling.fillCache
  split
  · exact { h with cached := older }
  · refine { h with cached := fun channel' k hk => ?_ }
    dsimp only at hk
    by_cases hc : channel' = channel
    · subst hc
      rw [Function.update_self] at hk
      obtain rfl := Option.some.inj hk
      refine ⟨history, [(t, .stats channel')], t, rfl, ?_, rfl, ?_, ?_⟩
      · rw [List.map_append]
        exact List.mem_append_right _ (List.mem_singleton_self t)
      · exact List.forall_mem_singleton.mpr ⟨le_rfl, fun hreset => nomatch hreset⟩
      · change S.statsOf (s.histOf t channel') = _
        rw [h.histOf ht]
    · rw [Function.update_of_ne hc] at hk
      exact older channel' k hk

/-- **What the keys in Redis have stays what the controller of one process has.** -/
theorem concat (h : Lags S now history s ((MemoryPolling.controller S).after history))
    {e : PollingEvent} (hr : Recent S (history ++ [e]) now) :
    Lags S now (history ++ [e]) (RedisPolling.call S e.1 e.2 s)
      ((MemoryPolling.controller S).after (history ++ [e])) := by
  obtain ⟨t, c⟩ := e
  have hmem : (t, c) ∈ history ++ [(t, c)] :=
    List.mem_append_right _ (List.mem_singleton_self _)
  have ht : t ≤ now := hr.past _ hmem
  have hweek : (now : ℚ) < t + histTtlSeconds := hr.week _ hmem
  have hpast : ∀ e ∈ history, e.1 ≤ t := by
    intro e he
    have hordered := hr.ordered
    rw [List.map_append] at hordered
    exact (List.pairwise_append.mp hordered).2.2 e.1 (List.mem_map_of_mem he) t
      (List.mem_singleton_self t)
  rw [after_concat]
  cases c with
  | recordDuration channel seconds => exact h.recordDuration ht hweek hpast seconds
  | stats channel => exact h.stats ht hpast
  | noteRateLimited channel retryAfter => exact h.noteRateLimited ht hweek hpast retryAfter
  | noteCleanPeriod channel =>
      exact h.noteCleanPeriod ht hweek hpast fun _ hreset => nomatch hreset
  | decayIfClean channel quietSeconds =>
      exact h.decayIfClean ht hweek hpast (hr.quiet _ hmem channel quietSeconds rfl)
  | reset channel includeSamples => exact h.reset hpast includeSamples

theorem after (hr : Recent S history now) :
    Lags S now history ((RedisPolling.controller S).after history)
      ((MemoryPolling.controller S).after history) := by
  induction history using List.reverseRecOn with
  | nil => exact .start S now
  | append_singleton history e ih =>
      have hbefore : Recent S history now := by
        have hordered := hr.ordered
        rw [List.map_append] at hordered
        exact ⟨(List.pairwise_append.mp hordered).1,
          fun e he => hr.past e (List.mem_append_left _ he),
          fun e he => hr.week e (List.mem_append_left _ he),
          fun e he => hr.quiet e (List.mem_append_left _ he)⟩
      have hstep := (ih hbefore).concat hr
      rwa [after_concat (P := RedisPolling.controller S)]

end Lags

/-- **The controller in Redis is the one of one process, with statistics of the last five
minutes**: while no call is a week old, multipliers and pauses are the same after the same calls,
and the statistics are those after an earlier part of the calls, of which the others are younger
than five minutes and none resets the samples. -/
theorem redis_lags_memory {S : PollSettings} {history : List PollingEvent} {now : ℚ≥0}
    (hr : Recent S history now) (channel : String) :
    (RedisPolling.controller S).multiplier now ((RedisPolling.controller S).after history) channel =
      (MemoryPolling.controller S).multiplier now ((MemoryPolling.controller S).after history)
        channel ∧
    (RedisPolling.controller S).pausedFor now ((RedisPolling.controller S).after history) channel =
      (MemoryPolling.controller S).pausedFor now ((MemoryPolling.controller S).after history)
        channel ∧
    ∃ before after, history = before ++ after ∧
      (∀ e ∈ after, (now : ℚ) < e.1 + pctCacheSeconds ∧ e.2 ≠ .reset channel true) ∧
      (RedisPolling.controller S).stats now ((RedisPolling.controller S).after history) channel =
        (MemoryPolling.controller S).stats now ((MemoryPolling.controller S).after before)
          channel := by
  have h := Lags.after hr
  refine ⟨h.multiplierOf le_rfl channel, h.pausedFor channel, ?_⟩
  change ∃ before after, _ ∧ _ ∧ RedisPolling.statsOf S _ now channel = _
  unfold RedisPolling.statsOf
  cases hk : ((RedisPolling.controller S).after history).pct channel with
  | none =>
      refine ⟨history, [], (List.append_nil _).symm, fun _ he => absurd he List.not_mem_nil, ?_⟩
      change S.statsOf _ = _
      rw [h.histOf le_rfl]
      rfl
  | some k =>
      rw [Expirable.live_some]
      by_cases hlive : (now : ℚ) < k.expiresAt
      · obtain ⟨before, after, since, hsplit, -, hexpires, hafter, hvalue⟩ := h.cached channel k hk
        refine ⟨before, after, hsplit, fun e he => ⟨?_, (hafter e he).2⟩, ?_⟩
        · have hsince : (since : ℚ) ≤ e.1 := by exact_mod_cast (hafter e he).1
          linarith
        · rw [if_pos hlive, Option.getD_some, hvalue]
          rfl
      · refine ⟨history, [], (List.append_nil _).symm, fun _ he => absurd he List.not_mem_nil, ?_⟩
        rw [if_neg hlive, Option.getD_none, h.histOf le_rfl]
        rfl

/-- A duration, a reading of the statistics, a 429, and a second duration later. -/
def laggingHistory : List PollingEvent :=
  [(0, .recordDuration "midjourney" 25), (0, .stats "midjourney"),
    (1, .noteRateLimited "midjourney" (some 30)), (1, .recordDuration "midjourney" 95)]

theorem recent_laggingHistory : Recent {} laggingHistory 2 where
  ordered := by simp [laggingHistory]
  past := by simp [laggingHistory]
  week := by norm_num [laggingHistory, histTtlSeconds]
  quiet := by simp [laggingHistory]

/-- The multipliers are the same, and the statistics those of an earlier part of the calls. -/
theorem laggingHistory_lags :
    (RedisPolling.controller {}).multiplier 2 ((RedisPolling.controller {}).after laggingHistory)
        "midjourney" =
      (MemoryPolling.controller {}).multiplier 2
        ((MemoryPolling.controller {}).after laggingHistory) "midjourney" ∧
    ∃ before after, laggingHistory = before ++ after ∧
      (RedisPolling.controller {}).stats 2 ((RedisPolling.controller {}).after laggingHistory)
          "midjourney" =
        (MemoryPolling.controller {}).stats 2 ((MemoryPolling.controller {}).after before)
          "midjourney" := by
  obtain ⟨hmultiplier, -, before, after, hsplit, -, hstats⟩ :=
    redis_lags_memory recent_laggingHistory "midjourney"
  exact ⟨hmultiplier, before, after, hsplit, hstats⟩

end AsyncGateway
