import AsyncGateway.Infra.AcceptRate
import AsyncGateway.Infra.Concurrency

/-!
# Infra — the rate of accepted requests within one process

`MemoryAcceptRateLimiter` has one bucket, whatever the channel of a call, and the bucket has no
expiry.  So, the calls being at whole milliseconds, it admits what the script admits where every
call is on one channel (`memory_accept_mirrors_redis`), and whatever the rate and the burst, no more
over any time than the burst and the rate (`memory_accept_bounded`).

A refusal names a wait.  The process knows its bucket, and the wait is the time until the bucket
covers the cost (`retry_granted_iff`); the client of Redis does not, and names the time an empty
bucket takes, which is enough but for the millisecond the script does not see
(`redis_retry_granted`).

Arithmetic is exact here, as for the script: the floats of the source round, and at the very instant
a bucket covers a cost they may say otherwise.
-/

namespace AsyncGateway

open Credit (Bucket Demand)
open Limiter (SlotDecision)

namespace MemoryAcceptRateLimiter

section Limiter

variable (rate burst : ℚ)

/-- `__init__`, at a time of the monotonic clock, which counts seconds. -/
def make (ts : ℚ) : Bucket ℚ := ⟨burst, ts⟩

/-- The refusal of a call, and the wait until its cost is there. -/
def refusal (need : ℚ) : SlotDecision :=
  { granted := false, reason := "accept_rate", retryAfter := some (need / max rate (1 / 1000)) }

/-- `try_acquire`; the time of the call is that of the monotonic clock. -/
def tryAcquire (call : TimedCall) : StateM (Bucket ℚ) SlotDecision := do
  let now := call.time
  let self ← get
  let tokens := min burst (self.tokens + (now - self.ts) * rate)
  if call.cost ≤ tokens then do
    set (Bucket.mk (tokens - call.cost) now)
    pure { granted := true }
  else do
    set (Bucket.mk tokens now)
    pure (refusal rate (call.cost - tokens))

/-- What becomes of calls, one after the other, and the bucket after them. -/
def decisions : List TimedCall → Bucket ℚ → List (TimedCall × SlotDecision) × Bucket ℚ
  | [], b => ([], b)
  | call :: calls, b =>
      let tried := tryAcquire rate burst call b
      let rest := decisions calls tried.2
      ((call, tried.1) :: rest.1, rest.2)

end Limiter

/-- The cost that was admitted, for all channels, from the second `s` on, for `T` seconds. -/
def admittedCost (s T : ℚ) (outcomes : List (TimedCall × SlotDecision)) : ℚ :=
  ((outcomes.filter fun o => o.2.granted && decide (s ≤ o.1.time ∧
    o.1.time ≤ s + T)).map (·.1.cost)).sum

variable {rate burst : ℚ} {b : Bucket ℚ} {call again : TimedCall} {calls : List TimedCall}

/-- The demand a call makes of the bucket. -/
def demand (call : TimedCall) : Demand ℚ := ⟨call.time, call.cost⟩

theorem demand_cost : (demand call).cost = call.cost := rfl

/-- **What a call does**: it is the demand on a bucket that refills. -/
theorem tryAcquire_eq (hts : b.ts ≤ call.time) : tryAcquire rate burst call b =
    (if (Credit.meet rate burst (demand call) b).1 = true then { granted := true }
      else refusal rate (call.cost - Credit.level rate burst b call.time),
      (Credit.meet rate burst (demand call) b).2) := by
  have hheld : min burst (b.tokens + (call.time - b.ts) * rate) =
      Credit.level rate burst b call.time := by
    rw [Credit.level, max_eq_right (sub_nonneg.mpr hts)]
  have hbody : ∀ tokens, min burst (b.tokens + (call.time - b.ts) * rate) = tokens →
      tryAcquire rate burst call b = if call.cost ≤ tokens then
        ({ granted := true }, ⟨tokens - call.cost, call.time⟩)
      else (refusal rate (call.cost - tokens), ⟨tokens, call.time⟩) := by
    rintro tokens rfl
    change (ite _ _ _ : StateM (Bucket ℚ) SlotDecision) b = _
    split
    · rfl
    · rfl
  have htime : (demand call).time = call.time := rfl
  rw [hbody _ hheld, Credit.meet, demand_cost, htime]
  by_cases hcost : call.cost ≤ Credit.level rate burst b call.time
  · rw [if_pos hcost, if_pos hcost]
    rfl
  · rw [if_neg hcost, if_neg hcost]
    rfl

theorem granted_tryAcquire (hts : b.ts ≤ call.time) :
    (tryAcquire rate burst call b).1.granted = (Credit.meet rate burst (demand call) b).1 := by
  rw [tryAcquire_eq hts]
  cases (Credit.meet rate burst (demand call) b).1 with
  | true => rfl
  | false => rfl

theorem bucket_tryAcquire (hts : b.ts ≤ call.time) :
    (tryAcquire rate burst call b).2 = (Credit.meet rate burst (demand call) b).2 := by
  rw [tryAcquire_eq hts]

theorem decisions_cons : decisions rate burst (call :: calls) b =
    ((call, (tryAcquire rate burst call b).1) ::
      (decisions rate burst calls (tryAcquire rate burst call b).2).1,
      (decisions rate burst calls (tryAcquire rate burst call b).2).2) := by
  simp only [decisions]

/-- The later calls find a bucket of no later time. -/
theorem ts_tryAcquire_le (hts : b.ts ≤ call.time) (hle : call.time ≤ again.time) :
    (tryAcquire rate burst call b).2.ts ≤ again.time := by
  rw [bucket_tryAcquire hts, Credit.ts_meet]
  exact hle

/-! ### No more than the burst and the rate -/

theorem ordered_demands {start : ℚ} (hcalls : InOrder calls)
    (hstart : ∀ call ∈ calls, start ≤ call.time) :
    ∃ stop, Credit.Ordered start stop (calls.map demand) := by
  induction calls generalizing start with
  | nil => exact ⟨start, le_rfl⟩
  | cons call calls ih =>
      obtain ⟨hlater, hcalls⟩ := List.pairwise_cons.mp hcalls
      obtain ⟨stop, hrest⟩ := @ih call.time hcalls hlater
      exact ⟨stop, hstart call List.mem_cons_self, hrest⟩

theorem admittedCost_decisions {s T : ℚ} (hcalls : InOrder calls)
    (hts : ∀ call ∈ calls, b.ts ≤ call.time) :
    admittedCost s T (decisions rate burst calls b).1 =
      Credit.spentWithin rate burst s (s + T) (calls.map demand) b := by
  induction calls generalizing b with
  | nil => rfl
  | cons call calls ih =>
      obtain ⟨hlater, hcalls⟩ := List.pairwise_cons.mp hcalls
      have hfirst := hts call List.mem_cons_self
      have hnext : ∀ c ∈ calls, (tryAcquire rate burst call b).2.ts ≤ c.time :=
        fun c hc => ts_tryAcquire_le hfirst (hlater c hc)
      have hrest := ih hcalls hnext
      rw [List.map_cons, Credit.spentWithin, ← bucket_tryAcquire hfirst, ← hrest,
        ← granted_tryAcquire hfirst, decisions_cons]
      by_cases hin : s ≤ (demand call).time ∧ (demand call).time ≤ s + T
      · rw [if_pos hin]
        rw [demand] at hin
        cases hg : (tryAcquire rate burst call b).1.granted with
        | true => simp [admittedCost, hg, hin, Credit.charge, demand]
        | false => simp [admittedCost, hg, Credit.charge]
      · rw [if_neg hin, zero_add]
        rw [demand] at hin
        simp [admittedCost, hin]

/-- **Whatever the rate and the burst, over any time no more is admitted, for all channels, than the
burst and the rate.** -/
theorem memory_accept_bounded {start s T : ℚ} (hrate : 0 ≤ rate) (hburst : 0 ≤ burst)
    (hT : 0 ≤ T) (hcalls : InOrder calls) (hmade : ∀ call ∈ calls, start ≤ call.time) :
    admittedCost s T (decisions rate burst calls (make burst start)).1 ≤ burst + rate * T := by
  obtain ⟨stop, hordered⟩ := ordered_demands hcalls hmade
  have hspent : Credit.spentWithin rate burst s (s + T) (calls.map demand) (make burst start) ≤
      burst + (s + T - s) * rate :=
    Credit.spentWithin_le hrate hburst hburst le_rfl (by linarith) hordered
  rw [admittedCost_decisions hcalls hmade]
  linarith

/-- The whole burst, and the whole burst again a minute later. -/
def aMinuteApart (channel : String) (burst : ℚ) : List TimedCall :=
  [⟨channel, 0, burst⟩, ⟨channel, 60, burst⟩]

/-- One a second and a burst of a hundred keep it: of two hundred calls a minute apart, no more than
a hundred and sixty pass. -/
theorem one_a_second_bounded :
    admittedCost 0 60 (decisions 1 100 (aMinuteApart "ch" 100) (make 100 0)).1 ≤ 160 := by
  have hbound : admittedCost 0 60 (decisions 1 100 (aMinuteApart "ch" 100) (make 100 0)).1 ≤
      100 + 1 * 60 :=
    memory_accept_bounded (by norm_num) (by norm_num) (by norm_num)
      (by simp [InOrder, aMinuteApart]) (by simp [aMinuteApart])
  exact hbound.trans (by norm_num)

/-! ### The script, where every call is on one channel -/

/-- The call as the script is given it, were it on the channel. -/
def onto (channel : String) (call : TimedCall) : AcceptCall :=
  { call with channel := channel }.sent

/-- The call comes at a whole millisecond, which is what the script sees of a time. -/
def Whole (call : TimedCall) : Prop := ∃ millis : ℤ, 1000 * call.time = millis

theorem onto_now {channel : String} (h : Whole call) :
    (onto channel call).now = 1000 * call.time := by
  obtain ⟨millis, hmillis⟩ := h
  change ((⌊1000 * call.time⌋ : ℤ) : ℚ) = 1000 * call.time
  rw [hmillis, Int.floor_intCast]

/-- The bucket, with its time in milliseconds. -/
def inMillis (b : Bucket ℚ) : Bucket ℚ := ⟨b.tokens, 1000 * b.ts⟩

theorem level_inMillis {now : ℚ} : Credit.level (rate / 1000) burst (inMillis b) (1000 * now) =
    Credit.level rate burst b now := by
  have hsince : max 0 (1000 * now - 1000 * b.ts) = 1000 * max 0 (now - b.ts) := by
    rw [mul_max_of_nonneg _ _ (by norm_num), mul_zero, mul_sub]
  rw [Credit.level, Credit.level, inMillis, hsince]
  congr 2
  ring

theorem meet_inMillis : Credit.meet (rate / 1000) burst ⟨1000 * call.time, call.cost⟩ (inMillis b) =
    ((Credit.meet rate burst (demand call) b).1,
      inMillis (Credit.meet rate burst (demand call) b).2) := by
  have htime : (demand call).time = call.time := rfl
  rw [Credit.meet, Credit.meet, level_inMillis, demand_cost, htime]
  by_cases hcost : call.cost ≤ Credit.level rate burst b call.time
  · rw [if_pos hcost, if_pos hcost, inMillis]
  · rw [if_neg hcost, if_neg hcost, inMillis]

/-- Where the key of the channel stands for the bucket, they grant the same calls. -/
theorem grants_eq {keys : RateKeys} {channel : String} (hrate : 0 < rate) (hburst : 0 ≤ burst)
    (hminute : burst ≤ 60 * rate) (hstands : Stands burst (keys (acceptKey channel)) (inMillis b))
    (hts : ∀ call ∈ calls, b.ts ≤ call.time) (hcalls : InOrder calls)
    (hwhole : ∀ call ∈ calls, Whole call) :
    (decisions rate burst calls b).1.map (·.2.granted) =
      (AsyncGateway.decisions rate burst (calls.map (onto channel)) keys).1.map (·.2) := by
  induction calls generalizing b keys with
  | nil => rfl
  | cons call calls ih =>
      obtain ⟨hlater, hcalls⟩ := List.pairwise_cons.mp hcalls
      obtain ⟨hnow, hwhole⟩ := List.forall_mem_cons.mp hwhole
      have hnow := @onto_now call channel hnow
      have hfirst := hts call List.mem_cons_self
      have hmillis : (inMillis b).ts ≤ (onto channel call).now := by
        rw [hnow, inMillis]
        linarith
      obtain ⟨hgrant, hnext⟩ :=
        @stands_tryAcquire rate burst keys (onto channel call) hrate hburst hminute _ hstands
          hmillis
      have hmeet : Credit.meet (rate / 1000) burst
          ⟨(onto channel call).now, (onto channel call).cost⟩ (inMillis b) =
            ((Credit.meet rate burst (demand call) b).1,
              inMillis (Credit.meet rate burst (demand call) b).2) := by
        rw [hnow]
        exact meet_inMillis
      rw [hmeet] at hgrant hnext
      rw [← bucket_tryAcquire hfirst] at hnext
      rw [List.map_cons, AsyncGateway.decisions_cons, decisions_cons, List.map_cons, List.map_cons,
        hgrant, granted_tryAcquire hfirst,
        ih hnext (fun c hc => ts_tryAcquire_le hfirst (hlater c hc)) hcalls hwhole]

theorem whole_aMinuteApart {channel : String} :
    ∀ call ∈ aMinuteApart channel burst, Whole call := by
  refine List.forall_mem_cons.mpr ⟨⟨0, ?_⟩, List.forall_mem_cons.mpr ⟨⟨60000, ?_⟩, by simp⟩⟩
  · norm_num
  · norm_num

theorem onto_aMinuteApart {channel : String} :
    (aMinuteApart channel burst).map (onto channel) = minuteApart channel burst := by
  have hnow : ∀ call ∈ aMinuteApart channel burst,
      onto channel call = ⟨channel, 1000 * call.time, call.cost⟩ := fun call hc =>
    congrArg (fun now : ℚ => (⟨channel, now, call.cost⟩ : AcceptCall))
      (onto_now (whole_aMinuteApart call hc))
  rw [List.map_congr_left hnow]
  simp [aMinuteApart, minuteApart]
  norm_num

/-- A minute after the burst was taken, the process grants it again if a minute refills it. -/
theorem grants_minuteApart :
    (decisions rate burst (aMinuteApart "" burst) (make burst 0)).1.map (·.2.granted) =
      [true, decide (burst ≤ 60 * rate)] := by
  have hfirst : tryAcquire rate burst ⟨"", 0, burst⟩ (make burst 0) =
      ({ granted := true }, ⟨0, 0⟩) := by
    have hlevel : Credit.level rate burst (make burst 0) 0 = burst := by
      simp [Credit.level, make]
    rw [tryAcquire_eq (by simp [make])]
    simp [Credit.meet, demand, hlevel]
  have hsecond : (tryAcquire rate burst ⟨"", 60, burst⟩ ⟨0, 0⟩).1.granted =
      decide (burst ≤ 60 * rate) := by
    have hlevel : Credit.level rate burst ⟨0, 0⟩ 60 = min burst (60 * rate) := by
      simp [Credit.level]
    rw [granted_tryAcquire (by norm_num), Credit.meet, demand_cost, demand, hlevel]
    by_cases hminute : burst ≤ 60 * rate
    · simp [hminute]
    · simp [hminute]
  rw [aMinuteApart, decisions_cons, decisions_cons, hfirst, List.map_cons, List.map_cons, hsecond]
  rfl

/-- A bucket that is gone is a full one. -/
theorem granted_of_absent {keys : RateKeys} {call : AcceptCall} (hcost : call.cost ≤ burst)
    (habsent : keys.find (acceptKey call.channel) call.now = none) :
    (AsyncGateway.tryAcquire rate burst call keys).1 = true := by
  rw [AsyncGateway.tryAcquire_eq, available, habsent]
  exact decide_eq_true hcost

/-- A minute after the burst was taken, the bucket is gone. -/
theorem redis_grants_minuteApart (channel : String) :
    (AsyncGateway.decisions rate burst (minuteApart channel burst) fun _ => none).1.map (·.2) =
      [true, true] := by
  have hgone : ((AsyncGateway.tryAcquire rate burst ⟨channel, 0, burst⟩ fun _ => none).2).find
      (acceptKey channel) 60000 = none := by
    simp [AsyncGateway.tryAcquire_eq, RateKeys.find]
  have hone : (AsyncGateway.tryAcquire rate burst ⟨channel, 0, burst⟩ fun _ => none).1 = true :=
    granted_of_absent le_rfl rfl
  have htwo : (AsyncGateway.tryAcquire rate burst ⟨channel, 60000, burst⟩
      (AsyncGateway.tryAcquire rate burst ⟨channel, 0, burst⟩ fun _ => none).2).1 = true :=
    granted_of_absent le_rfl hgone
  rw [minuteApart, AsyncGateway.decisions_cons, AsyncGateway.decisions_cons, List.map_cons,
    List.map_cons, hone, htwo]
  rfl

/-- **Calls at whole milliseconds are admitted by the process as the script would admit them on one
channel exactly where a minute refills the burst.** -/
theorem memory_accept_mirrors_redis (hrate : 0 < rate) (hburst : 0 < burst) :
    (∀ calls start channel, InOrder calls → (∀ call ∈ calls, start ≤ call.time ∧ Whole call) →
      (decisions rate burst calls (make burst start)).1.map (·.2.granted) =
        (AsyncGateway.decisions rate burst (calls.map (onto channel)) fun _ => none).1.map (·.2)) ↔
      burst ≤ 60 * rate := by
  constructor
  · intro hmirror
    have hgrants := hmirror (aMinuteApart "" burst) 0 "" (by simp [InOrder, aMinuteApart])
      fun call hc => ⟨?_, whole_aMinuteApart call hc⟩
    · rw [grants_minuteApart, onto_aMinuteApart, redis_grants_minuteApart] at hgrants
      simpa using hgrants
    · have hnonneg : ∀ call ∈ aMinuteApart "" burst, 0 ≤ call.time := by simp [aMinuteApart]
      exact hnonneg call hc
  · intro hminute calls start channel hcalls hmade
    exact grants_eq hrate hburst.le hminute ⟨hburst.le, .inl ⟨rfl, le_rfl⟩⟩
      (fun call hc => (hmade call hc).1) hcalls fun call hc => (hmade call hc).2

/-- A process with a burst of two and one a second mirrors the script. -/
theorem one_a_second_mirrors : (0 : ℚ) < 1 ∧ (0 : ℚ) < 2 ∧ ∀ calls start channel,
    InOrder calls → (∀ call ∈ calls, start ≤ call.time ∧ Whole call) →
      (decisions 1 2 calls (make 2 start)).1.map (·.2.granted) =
        (AsyncGateway.decisions 1 2 (calls.map (onto channel)) fun _ => none).1.map (·.2) :=
  ⟨by norm_num, by norm_num,
    (memory_accept_mirrors_redis (by norm_num) (by norm_num)).mpr (by norm_num)⟩

/-! ### The wait a refusal names -/

/-- Calls that are refused do not change what is there later. -/
theorem level_decisions_of_refused {now : ℚ} (hrate : 0 ≤ rate) (hcalls : InOrder calls)
    (hts : ∀ call ∈ calls, b.ts ≤ call.time) (hb : b.ts ≤ now)
    (hnow : ∀ call ∈ calls, call.time ≤ now)
    (hrefused : ∀ o ∈ (decisions rate burst calls b).1, o.2.granted = false) :
    Credit.level rate burst (decisions rate burst calls b).2 now = Credit.level rate burst b now ∧
      (decisions rate burst calls b).2.ts ≤ now := by
  induction calls generalizing b with
  | nil => exact ⟨rfl, hb⟩
  | cons call calls ih =>
      obtain ⟨hlater, hcalls⟩ := List.pairwise_cons.mp hcalls
      have hfirst := hts call List.mem_cons_self
      have hin := hnow call List.mem_cons_self
      rw [decisions_cons] at hrefused ⊢
      obtain ⟨hcall, hrest⟩ := List.forall_mem_cons.mp hrefused
      have hunmet : (Credit.meet rate burst (demand call) b).1 = false := by
        rw [← granted_tryAcquire hfirst]
        exact hcall
      have hsame := Credit.level_meet_of_not hrate hunmet hfirst hin
      obtain ⟨hlevel, hle⟩ := ih hcalls (fun c hc => ts_tryAcquire_le hfirst (hlater c hc))
        (by rw [bucket_tryAcquire hfirst, Credit.ts_meet]; exact hin)
        (fun c hc => hnow c (List.mem_cons_of_mem _ hc)) hrest
      exact ⟨hlevel.trans (by rw [bucket_tryAcquire hfirst, hsame]), hle⟩

/-- The wait of a refusal is for what the bucket lacks. -/
theorem wait_eq {wait : ℚ} (hts : b.ts ≤ call.time)
    (hwait : (tryAcquire rate burst call b).1.retryAfter = some wait) :
    wait = (call.cost - Credit.level rate burst b call.time) / max rate (1 / 1000) := by
  rw [tryAcquire_eq hts] at hwait
  split at hwait
  · cases hwait
  · exact (Option.some.inj hwait).symm

/-- **The wait a refusal names is the wait**: whatever else is refused meanwhile, the call is
granted from then on, and not before. -/
theorem retry_granted_iff {wait : ℚ} (hrate : 1 / 1000 ≤ rate) (hcost : call.cost ≤ burst)
    (hts : b.ts ≤ call.time) (hcalls : InOrder ((call :: calls) ++ [again]))
    (hrefused : ∀ o ∈ (decisions rate burst (call :: calls) b).1, o.2.granted = false)
    (hwait : (tryAcquire rate burst call b).1.retryAfter = some wait)
    (hsame : again.cost = call.cost) :
    (tryAcquire rate burst again (decisions rate burst (call :: calls) b).2).1.granted = true ↔
      call.time + wait ≤ again.time := by
  have hpos : 0 < rate := lt_of_lt_of_le (by norm_num) hrate
  obtain ⟨hfirst, -, hlast⟩ := List.pairwise_append.mp hcalls
  obtain ⟨hlater, -⟩ := List.pairwise_cons.mp hfirst
  have hafter : call.time ≤ again.time := hlast call List.mem_cons_self again List.mem_cons_self
  have hlevel := level_decisions_of_refused hpos.le hfirst
    (List.forall_mem_cons.mpr ⟨hts, fun c hc => hts.trans (hlater c hc)⟩) (hts.trans hafter)
    (fun c hc => hlast c hc again List.mem_cons_self) hrefused
  -- what is there at the call is less than its cost, so less than the burst
  have hunmet : Credit.level rate burst b call.time < call.cost := by
    have hcall := hrefused _ (by rw [decisions_cons]; exact List.mem_cons_self)
    rw [granted_tryAcquire hts] at hcall
    exact not_le.mp fun hle => Bool.false_ne_true (hcall.symm.trans (Credit.meet_iff.mpr hle))
  have hthen : Credit.level rate burst b call.time =
      b.tokens + (call.time - b.ts) * rate := by
    rw [Credit.level, max_eq_right (sub_nonneg.mpr hts)] at hunmet ⊢
    exact min_eq_right (not_lt.mp fun h => absurd (hunmet.trans_le hcost) (by
      rw [min_eq_left h.le]
      exact lt_irrefl _))
  have hagain : Credit.level rate burst b again.time = min burst
      (Credit.level rate burst b call.time + (again.time - call.time) * rate) := by
    rw [hthen, Credit.level, max_eq_right (sub_nonneg.mpr (hts.trans hafter))]
    congr 1
    ring
  have hneed : wait * rate = call.cost - Credit.level rate burst b call.time := by
    rw [wait_eq hts hwait, max_eq_left hrate, div_mul_cancel₀ _ hpos.ne']
  have htime : (demand again).time = again.time := rfl
  rw [granted_tryAcquire hlevel.2, Credit.meet_iff, htime, hlevel.1, hagain, demand_cost, hsame,
    le_min_iff, ← le_sub_iff_add_le']
  constructor
  · rintro ⟨-, hthere⟩
    refine le_of_mul_le_mul_right ?_ hpos
    rw [hneed]
    linarith
  · intro hle
    have hgain := mul_le_mul_of_nonneg_right hle hpos.le
    rw [hneed] at hgain
    exact ⟨hcost, by linarith⟩

/-- A second after the bucket was found empty, one more is granted. -/
theorem retry_after_one : (1 / 1000 : ℚ) ≤ 1 ∧ (tryAcquire 1 2 ⟨"ch", 1, 1⟩ (decisions 1 2
    [⟨"ch", 0, 1⟩, ⟨"other", 1 / 2, 1⟩] ⟨0, 0⟩).2).1.granted = true := by
  have hcalls : InOrder ([⟨"ch", 0, 1⟩, ⟨"other", 1 / 2, 1⟩] ++ [⟨"ch", 1, 1⟩]) := by
    simp [InOrder]
    norm_num
  have hrefused : ∀ o ∈ (decisions 1 2 [⟨"ch", 0, 1⟩, ⟨"other", 1 / 2, 1⟩] ⟨0, 0⟩).1,
      o.2.granted = false := by
    decide +kernel
  have hwait : (tryAcquire 1 2 ⟨"ch", 0, 1⟩ ⟨0, 0⟩).1.retryAfter = some 1 := by
    decide +kernel
  exact ⟨by norm_num, (retry_granted_iff (by norm_num) (by norm_num) le_rfl hcalls hrefused hwait
    rfl).mpr (by norm_num)⟩

end MemoryAcceptRateLimiter

/-! ### The wait the script's client names -/

/-- The answer of `RedisAcceptRateLimiter.try_acquire`: the bucket is not known, and the wait is
that of an empty one. -/
def redisDecision (rate cost : ℚ) (allowed : Bool) : SlotDecision :=
  if allowed then { granted := true }
  else { granted := false, reason := "accept_rate",
         retryAfter := some (max (1 / 20) (cost / max rate (1 / 1000))) }

section Retry

variable {rate burst : ℚ} {keys : RateKeys} {call again : AcceptCall} {calls : List AcceptCall}
  {channel : String}

/-- No bucket holds less than nothing. -/
def NonNeg (keys : RateKeys) : Prop := ∀ key k, keys key = some k → 0 ≤ k.bucket.tokens

theorem available_nonneg (hrate : 0 ≤ rate) (hburst : 0 ≤ burst) (h : NonNeg keys) {now : ℚ} :
    0 ≤ available rate burst keys channel now := by
  rw [available]
  split
  · exact hburst
  · rename_i b hb
    obtain ⟨k, hk, rfl⟩ := Option.map_eq_some_iff.mp hb
    have htokens := h _ k (Option.filter_eq_some_iff.mp hk).1
    exact le_min hburst (add_nonneg htokens (mul_nonneg (div_nonneg (le_max_left _ _)
      (by norm_num)) hrate))

theorem keys_tryAcquire : (tryAcquire rate burst call keys).2 =
    Function.update keys (acceptKey call.channel)
      (some ⟨⟨available rate burst keys call.channel call.now -
        if call.cost ≤ available rate burst keys call.channel call.now then call.cost else 0,
        call.now⟩, call.now + 60000⟩) := by
  rw [tryAcquire_eq]

theorem nonNeg_tryAcquire (hrate : 0 ≤ rate) (hburst : 0 ≤ burst) (h : NonNeg keys) :
    NonNeg (tryAcquire rate burst call keys).2 := by
  intro key k hk
  rw [keys_tryAcquire] at hk
  by_cases hkey : key = acceptKey call.channel
  · subst hkey
    rw [Function.update_self] at hk
    obtain rfl := Option.some.inj hk
    split
    · exact sub_nonneg.mpr ‹_›
    · rw [sub_zero]
      exact available_nonneg hrate hburst h
  · rw [Function.update_of_ne hkey] at hk
    exact h key k hk

theorem nonNeg_decisions (hrate : 0 ≤ rate) (hburst : 0 ≤ burst) (h : NonNeg keys) :
    NonNeg (decisions rate burst calls keys).2 := by
  induction calls generalizing keys with
  | nil => exact h
  | cons call calls ih =>
      rw [decisions_cons]
      exact ih (nonNeg_tryAcquire hrate hburst h)

theorem find_update {key : String} {k : RateKey} {now : ℚ} :
    RateKeys.find (Function.update keys key (some k)) key now =
      if now < k.expiresAt then some k.bucket else none := by
  rw [RateKeys.find, Function.update_self, Option.filter_some]
  by_cases hlive : now < k.expiresAt
  · rw [if_pos hlive, if_pos (decide_eq_true hlive), Option.map_some]
  · rw [if_neg hlive, if_neg (by simpa using hlive), Option.map_none]

/-- A call that is not granted takes nothing. -/
theorem available_of_refused (hrefused : (tryAcquire rate burst call keys).1 = false) {now : ℚ}
    (hle : call.now ≤ now) :
    min burst (available rate burst keys call.channel call.now +
        (now - call.now) / 1000 * rate) ≤
      available rate burst (tryAcquire rate burst call keys).2 call.channel now := by
  have hcost : ¬ call.cost ≤ available rate burst keys call.channel call.now :=
    not_le.mpr (refused_lt hrefused)
  rw [keys_tryAcquire, if_neg hcost, sub_zero]
  generalize available rate burst keys call.channel call.now = held
  rw [available, find_update]
  by_cases hlive : now < call.now + 60000
  · rw [if_pos hlive]
    change _ ≤ min burst (held + max 0 (now - call.now) / 1000 * rate)
    rw [max_eq_right (sub_nonneg.mpr hle)]
  · rw [if_neg hlive]
    exact min_le_left _ _

/-- Calls on the channel that are refused, and calls on others, leave the channel what refilled an
empty bucket since `start`. -/
theorem refilled_decisions {start seen now : ℚ} (hrate : 0 ≤ rate) (hcalls : Chronological calls)
    (hlater : ∀ call ∈ calls, seen ≤ call.now ∧ call.now ≤ now) (hseen : seen ≤ now)
    (hrefused : ∀ o ∈ (decisions rate burst calls keys).1, o.1.channel = channel → o.2 = false)
    (h : ∀ t, seen ≤ t → min burst ((t - start) / 1000 * rate) ≤
      available rate burst keys channel t) :
    min burst ((now - start) / 1000 * rate) ≤
      available rate burst (decisions rate burst calls keys).2 channel now := by
  induction calls generalizing keys seen with
  | nil => exact h now hseen
  | cons call calls ih =>
      obtain ⟨hafter, hcalls⟩ := List.pairwise_cons.mp hcalls
      obtain ⟨hcall, hrest⟩ := List.forall_mem_cons.mp hlater
      rw [decisions_cons] at hrefused ⊢
      obtain ⟨hone, hrefused⟩ := List.forall_mem_cons.mp hrefused
      refine ih hcalls (fun c hc => ⟨hafter c hc, (hrest c hc).2⟩) hcall.2 hrefused fun t ht => ?_
      by_cases hc : call.channel = channel
      · subst hc
        have hgain : 0 ≤ (t - call.now) / 1000 * rate :=
          mul_nonneg (div_nonneg (sub_nonneg.mpr ht) (by norm_num)) hrate
        have hsplit : (call.now - start) / 1000 * rate + (t - call.now) / 1000 * rate =
            (t - start) / 1000 * rate := by ring
        refine le_trans ?_ (available_of_refused (hone rfl) ht)
        refine le_trans ?_ (min_le_min_left _ (add_le_add_left (h call.now hcall.1) _))
        rw [← min_add_add_right, ← min_assoc, min_eq_left (le_add_of_nonneg_right hgain), hsplit]
      · have hsame : available rate burst (tryAcquire rate burst call keys).2 channel t =
            available rate burst keys channel t := by
          rw [available, available, RateKeys.find, RateKeys.find, tryAcquire_of_ne hc]
        rw [hsame]
        exact h t (hcall.1.trans ht)

/-- By the clock of the script the wait its client names is enough: whatever else is refused on the
channel meanwhile, the call is granted from then on. -/
theorem granted_after_wait {before : List AcceptCall} {wait : ℚ} (hrate : 1 / 1000 ≤ rate)
    (hburst : 0 ≤ burst) (hcost : call.cost ≤ burst)
    (hcalls : Chronological ((call :: calls) ++ [again]))
    (hrefused : ∀ o ∈ (decisions rate burst (call :: calls)
      (decisions rate burst before fun _ => none).2).1, o.1.channel = call.channel → o.2 = false)
    (hwait : (redisDecision rate call.cost (tryAcquire rate burst call
      (decisions rate burst before fun _ => none).2).1).retryAfter = some wait)
    (hchannel : again.channel = call.channel) (hsame : again.cost = call.cost)
    (hlate : call.now + 1000 * wait ≤ again.now) :
    (tryAcquire rate burst again (decisions rate burst (call :: calls)
      (decisions rate burst before fun _ => none).2).2).1 = true := by
  have hpos : 0 < rate := lt_of_lt_of_le (by norm_num) hrate
  obtain ⟨hfirst, -, hlast⟩ := List.pairwise_append.mp hcalls
  obtain ⟨hlater, -⟩ := List.pairwise_cons.mp hfirst
  have hnonneg : NonNeg (decisions rate burst before fun _ => none).2 :=
    nonNeg_decisions hpos.le hburst fun _ _ hk => by cases hk
  rw [decisions_cons] at hrefused
  obtain ⟨hone, hrefused⟩ := List.forall_mem_cons.mp hrefused
  have hcall : (tryAcquire rate burst call
      (decisions rate burst before fun _ => none).2).1 = false := hone rfl
  have hafter : call.now ≤ again.now := hlast call List.mem_cons_self again List.mem_cons_self
  -- the refused call leaves what an empty bucket would have, from then on
  have hleft : ∀ t, call.now ≤ t → min burst ((t - call.now) / 1000 * rate) ≤
      available rate burst (tryAcquire rate burst call
        (decisions rate burst before fun _ => none).2).2 call.channel t := fun t ht =>
    (min_le_min_left _ (le_add_of_nonneg_left (available_nonneg hpos.le hburst hnonneg))).trans
      (available_of_refused hcall ht)
  have hthere := refilled_decisions hpos.le (List.pairwise_cons.mp hfirst).2
    (fun c hc => ⟨hlater c hc, hlast c (List.mem_cons_of_mem _ hc) again List.mem_cons_self⟩)
    hafter hrefused hleft
  have hneed : call.cost ≤ (again.now - call.now) / 1000 * rate := by
    rw [hcall] at hwait
    have hwait : max (1 / 20) (call.cost / max rate (1 / 1000)) = wait := Option.some.inj hwait
    have hle : call.cost / rate ≤ wait := by
      rw [← hwait, max_eq_left hrate]
      exact le_max_right _ _
    rw [← div_le_iff₀ hpos]
    linarith
  rw [tryAcquire_eq, decisions_cons]
  refine decide_eq_true ?_
  rw [hsame, hchannel]
  exact (le_min hcost hneed).trans hthere

/-- What the clock of the script sees of a time is short of it by less than a millisecond. -/
theorem sent_now_add_le {call again : TimedCall} {wait : ℚ}
    (h : call.time + wait + 1 / 1000 ≤ again.time) :
    call.sent.now + 1000 * wait ≤ again.sent.now := by
  change ((⌊1000 * call.time⌋ : ℤ) : ℚ) + 1000 * wait ≤ ((⌊1000 * again.time⌋ : ℤ) : ℚ)
  have hseen : ((⌊1000 * call.time⌋ : ℤ) : ℚ) ≤ 1000 * call.time := Int.floor_le _
  have hshort : 1000 * again.time < ((⌊1000 * again.time⌋ : ℤ) : ℚ) + 1 := Int.lt_floor_add_one _
  linarith

theorem chronological_sent {calls : List TimedCall} (h : InOrder calls) :
    Chronological (calls.map TimedCall.sent) :=
  List.pairwise_map.mpr (h.imp sent_now_le)

/-- **A millisecond after the wait that the script's client names, the call is granted**, whatever
else is refused on the channel meanwhile. -/
theorem redis_retry_granted {before calls : List TimedCall} {call again : TimedCall} {wait : ℚ}
    (hrate : 1 / 1000 ≤ rate) (hburst : 0 ≤ burst) (hcost : call.cost ≤ burst)
    (hcalls : InOrder ((call :: calls) ++ [again]))
    (hrefused : ∀ o ∈ (decisions rate burst ((call :: calls).map TimedCall.sent)
      (decisions rate burst (before.map TimedCall.sent) fun _ => none).2).1,
        o.1.channel = call.channel → o.2 = false)
    (hwait : (redisDecision rate call.cost (tryAcquire rate burst call.sent
      (decisions rate burst (before.map TimedCall.sent) fun _ => none).2).1).retryAfter = some wait)
    (hchannel : again.channel = call.channel) (hsame : again.cost = call.cost)
    (hlate : call.time + wait + 1 / 1000 ≤ again.time) :
    (tryAcquire rate burst again.sent (decisions rate burst ((call :: calls).map TimedCall.sent)
      (decisions rate burst (before.map TimedCall.sent) fun _ => none).2).2).1 = true := by
  have hsent : Chronological ((call.sent :: calls.map TimedCall.sent) ++ [again.sent]) := by
    have hall := chronological_sent hcalls
    rwa [List.map_append] at hall
  exact granted_after_wait hrate hburst hcost hsent hrefused hwait hchannel hsame
    (sent_now_add_le hlate)

/-- A second and a millisecond after a bucket of two was emptied, one more is granted. -/
theorem redis_retry_after_one : (1 / 1000 : ℚ) ≤ 1 ∧
    (tryAcquire 1 2 (TimedCall.sent ⟨"ch", 1001 / 1000, 1⟩)
      (decisions 1 2 ([⟨"ch", 0, 1⟩, ⟨"other", 1 / 2, 1⟩].map TimedCall.sent)
        (decisions 1 2 ([⟨"ch", 0, 2⟩].map TimedCall.sent) fun _ => none).2).2).1 = true := by
  have hcalls : InOrder ([⟨"ch", 0, 1⟩, ⟨"other", 1 / 2, 1⟩] ++ [⟨"ch", 1001 / 1000, 1⟩]) := by
    simp [InOrder]
    norm_num
  have hrefused : ∀ o ∈ (decisions 1 2 ([⟨"ch", 0, 1⟩, ⟨"other", 1 / 2, 1⟩].map TimedCall.sent)
      (decisions 1 2 ([⟨"ch", 0, 2⟩].map TimedCall.sent) fun _ => none).2).1,
        o.1.channel = "ch" → o.2 = false := by
    decide +kernel
  have hwait : (redisDecision 1 1 (tryAcquire 1 2 (TimedCall.sent ⟨"ch", 0, 1⟩)
      (decisions 1 2 ([⟨"ch", 0, 2⟩].map TimedCall.sent) fun _ => none).2).1).retryAfter =
        some 1 := by
    decide +kernel
  exact ⟨by norm_num, redis_retry_granted (by norm_num) (by norm_num) (by norm_num) hcalls
    hrefused hwait rfl rfl (by norm_num)⟩

end Retry

end AsyncGateway
