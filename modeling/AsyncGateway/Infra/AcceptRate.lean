import AsyncGateway.Lib.Credit
import Mathlib.Algebra.Order.Ring.Unbundled.Rat
import Mathlib.Data.Rat.Defs
import Mathlib.Data.Rat.Floor
import Mathlib.Data.List.TakeWhile
import Mathlib.Logic.Function.Basic
import Mathlib.Tactic.Linarith

/-!
# Infra — the rate of accepted requests

The token bucket of a channel: the Lua script over the hash of the channel (`tokenBucketLua`), whose
key is gone a minute after the last request.  A bucket that is gone is a full one, so the expiry
refills it, too; `rateBound_iff` says for which rates and bursts that is no more than the refill
itself, and the script admits no more than the burst and the rate over any time.

The times of the script are milliseconds, the rate is in tokens a second.  Arithmetic is exact: the
floats of Lua and of Python are rationals here, and nothing is rounded but where the source calls
`int`.
-/

namespace AsyncGateway

open Credit (Bucket Demand)

/-- The hash of a bucket, and when its key expires. -/
structure RateKey where
  bucket : Bucket ℚ
  expiresAt : ℚ

abbrev RateKeys := String → Option RateKey

namespace RateKeys

/-- What is found under a key: nothing from its expiry on. -/
def find (keys : RateKeys) (key : String) (now : ℚ) : Option (Bucket ℚ) :=
  ((keys key).filter fun k => decide (now < k.expiresAt)).map (·.bucket)

/-- `HMGET key tokens ts`. -/
def hmget (key : String) (now : ℚ) : StateM RateKeys (Option (Bucket ℚ)) := fun keys =>
  (keys.find key now, keys)

/-- `HSET key tokens .. ts ..` and `PEXPIRE key ttl`. -/
def hsetExpire (key : String) (tokens ts now ttl : ℚ) : StateM RateKeys Unit := fun keys =>
  ((), Function.update keys key (some ⟨⟨tokens, ts⟩, now + ttl⟩))

end RateKeys

/-- `TOKEN_BUCKET_LUA`. -/
def tokenBucketLua (key : String) (rate burst now cost : ℚ) : StateM RateKeys ℕ := do
  let data ← RateKeys.hmget key now
  let tokens := (data.map (·.tokens)).getD burst
  let ts := (data.map (·.ts)).getD now
  let elapsed := max 0 (now - ts) / 1000
  let tokens := min burst (tokens + elapsed * rate)
  if cost ≤ tokens then do
    RateKeys.hsetExpire key (tokens - cost) now now 60000
    pure 1
  else do
    RateKeys.hsetExpire key tokens now now 60000
    pure 0

/-- A call of `try_acquire`, at the time the script is given, in milliseconds. -/
structure AcceptCall where
  channel : String
  now : ℚ
  cost : ℚ := 1

/-- A call of `try_acquire`, at the time its process's clock shows, in seconds. -/
structure TimedCall where
  channel : String
  time : ℚ
  cost : ℚ := 1

/-- The call as the script is given it, at `int(time.time() * 1000)`; the clock is past its
epoch. -/
def TimedCall.sent (call : TimedCall) : AcceptCall :=
  ⟨call.channel, ⌊1000 * call.time⌋, call.cost⟩

/-- The calls come in the order of their times. -/
def InOrder (calls : List TimedCall) : Prop := calls.Pairwise fun c c' => c.time ≤ c'.time

theorem sent_now_le {call again : TimedCall} (h : call.time ≤ again.time) :
    call.sent.now ≤ again.sent.now := by
  change ((⌊1000 * call.time⌋ : ℤ) : ℚ) ≤ ((⌊1000 * again.time⌋ : ℤ) : ℚ)
  exact Int.cast_le.mpr (Int.floor_le_floor (by linarith))

def acceptKey (channel : String) : String := "accept:\x7b" ++ channel ++ "\x7d"

theorem acceptKey_injective : Function.Injective acceptKey := by
  intro c c' h
  exact (String.append_right_inj _).mp ((String.append_left_inj _).mp h)

section Limiter

variable (rate burst : ℚ)

/-- `RedisAcceptRateLimiter.try_acquire`: whether the call is granted. -/
def tryAcquire (call : AcceptCall) : StateM RateKeys Bool := do
  let allowed ← tokenBucketLua (acceptKey call.channel) rate burst call.now call.cost
  pure (decide (allowed = 1))

/-- What becomes of calls, one after the other, and the keys after them. -/
def decisions : List AcceptCall → RateKeys → List (AcceptCall × Bool) × RateKeys
  | [], keys => ([], keys)
  | call :: calls, keys =>
      let tried := tryAcquire rate burst call keys
      let rest := decisions calls tried.2
      ((call, tried.1) :: rest.1, rest.2)

/-- What the bucket of a channel holds at a time; one that is gone is full. -/
def available (keys : RateKeys) (channel : String) (now : ℚ) : ℚ :=
  match keys.find (acceptKey channel) now with
  | none => burst
  | some b => min burst (b.tokens + max 0 (now - b.ts) / 1000 * rate)

end Limiter

/-- The cost that was admitted for a channel from the second `s` on, for `T` seconds. -/
def admittedCost (channel : String) (s T : ℚ) (outcomes : List (AcceptCall × Bool)) : ℚ :=
  ((outcomes.filter fun o => o.2 && decide (o.1.channel = channel ∧ 1000 * s ≤ o.1.now ∧
    o.1.now ≤ 1000 * (s + T))).map (·.1.cost)).sum

/-- The calls come in the order of their times. -/
def Chronological (calls : List AcceptCall) : Prop := calls.Pairwise fun c c' => c.now ≤ c'.now

/-- What the limiter is for. -/
structure RateBound (rate burst : ℚ) : Prop where
  /-- Over any time, no more is admitted than the burst and the rate. -/
  bounded : ∀ calls, Chronological calls → ∀ channel s T, 0 ≤ T →
    admittedCost channel s T (decisions rate burst calls fun _ => none).1 ≤ burst + rate * T
  /-- A call is refused only where the bucket holds less than its cost. -/
  refused : ∀ keys call, (tryAcquire rate burst call keys).1 = false →
    available rate burst keys call.channel call.now < call.cost

section Refinement

variable {rate burst : ℚ} {keys : RateKeys} {call : AcceptCall} {calls : List AcceptCall}
  {channel : String}

theorem decisions_cons : decisions rate burst (call :: calls) keys =
    ((call, (tryAcquire rate burst call keys).1) ::
      (decisions rate burst calls (tryAcquire rate burst call keys).2).1,
      (decisions rate burst calls (tryAcquire rate burst call keys).2).2) := by
  simp only [decisions]

/-- **What a call does**, in terms of what the bucket holds. -/
theorem tryAcquire_eq (call : AcceptCall) (keys : RateKeys) : tryAcquire rate burst call keys =
    (decide (call.cost ≤ available rate burst keys call.channel call.now),
      Function.update keys (acceptKey call.channel)
        (some ⟨⟨available rate burst keys call.channel call.now -
          if call.cost ≤ available rate burst keys call.channel call.now then call.cost else 0,
          call.now⟩, call.now + 60000⟩)) := by
  have hheld : min burst
      (((keys.find (acceptKey call.channel) call.now).map (·.tokens)).getD burst +
        max 0 (call.now - ((keys.find (acceptKey call.channel) call.now).map (·.ts)).getD call.now)
          / 1000 * rate) = available rate burst keys call.channel call.now := by
    rw [available]
    cases keys.find (acceptKey call.channel) call.now with
    | none => simp
    | some b => rfl
  have hleft : ∀ (code : ℕ) (left : ℚ), (do
      RateKeys.hsetExpire (acceptKey call.channel) left call.now call.now 60000
      pure code : StateM RateKeys ℕ) keys =
        (code, Function.update keys (acceptKey call.channel)
          (some ⟨⟨left, call.now⟩, call.now + 60000⟩)) := fun _ _ => rfl
  change (decide (Prod.fst ((ite (call.cost ≤ min burst _) _ _ : StateM RateKeys ℕ) keys) = 1),
    Prod.snd ((ite (call.cost ≤ min burst _) _ _ : StateM RateKeys ℕ) keys)) = _
  rw [hheld]
  by_cases hcost : call.cost ≤ available rate burst keys call.channel call.now
  · simp only [if_pos hcost, decide_eq_true hcost, hleft]
    rfl
  · simp only [if_neg hcost, decide_eq_false hcost, sub_zero, hleft]
    rfl

theorem perMilli (hrate : 0 < rate) : 0 ≤ rate / 1000 := div_nonneg hrate.le (by norm_num)

theorem refused_lt (h : (tryAcquire rate burst call keys).1 = false) :
    available rate burst keys call.channel call.now < call.cost := by
  rw [tryAcquire_eq] at h
  simpa using h

/-- The key of a channel stands for a bucket without an expiry. -/
structure Stands (burst : ℚ) (key : Option RateKey) (b : Bucket ℚ) : Prop where
  nonneg : 0 ≤ b.tokens
  key : (key = none ∧ burst ≤ b.tokens) ∨ key = some ⟨b, b.ts + 60000⟩

/-- Where a minute refills the burst, the expiry is not noticed. -/
theorem held_eq_level (hrate : 0 < rate) (hminute : burst ≤ 60 * rate) {b : Bucket ℚ}
    (h : Stands burst (keys (acceptKey channel)) b) {now : ℚ} (hts : b.ts ≤ now) :
    available rate burst keys channel now = Credit.level (rate / 1000) burst b now := by
  have hmax : max 0 (now - b.ts) = now - b.ts := max_eq_right (sub_nonneg.mpr hts)
  have hgain : 0 ≤ (now - b.ts) * (rate / 1000) :=
    mul_nonneg (sub_nonneg.mpr hts) (perMilli hrate)
  have hunit : (now - b.ts) / 1000 * rate = (now - b.ts) * (rate / 1000) := by ring
  rw [Credit.level, hmax, available]
  rcases h.key with ⟨hnone, hfull⟩ | hsome
  · simp only [RateKeys.find, hnone, Option.filter_none, Option.map_none]
    rw [min_eq_left (hfull.trans (le_add_of_nonneg_right hgain))]
  · by_cases hlive : now < b.ts + 60000
    · simp only [RateKeys.find, hsome, Option.filter_some, decide_eq_true hlive, if_true,
        Option.map_some, hmax, hunit]
    · simp only [RateKeys.find, hsome, Option.filter_some, decide_eq_false hlive,
        Bool.false_eq_true, if_false, Option.map_none]
      have hpast : 60000 * (rate / 1000) ≤ (now - b.ts) * (rate / 1000) :=
        mul_le_mul_of_nonneg_right (by linarith [not_lt.mp hlive]) (perMilli hrate)
      have hnonneg := h.nonneg
      rw [min_eq_left (by linarith)]

/-- The demands of a channel. -/
def demandsOf (channel : String) (calls : List AcceptCall) : List (Demand ℚ) :=
  (calls.filter fun call => decide (call.channel = channel)).map fun call => ⟨call.now, call.cost⟩

/-- The cost that was admitted for a channel. -/
def grantedCost (channel : String) (outcomes : List (AcceptCall × Bool)) : ℚ :=
  ((outcomes.filter fun o => o.2 && decide (o.1.channel = channel)).map (·.1.cost)).sum

/-- A call on the channel does to the key what the demand does to the bucket. -/
theorem stands_tryAcquire (hrate : 0 < rate) (hburst : 0 ≤ burst) (hminute : burst ≤ 60 * rate)
    {b : Bucket ℚ} (h : Stands burst (keys (acceptKey call.channel)) b) (hts : b.ts ≤ call.now) :
    (tryAcquire rate burst call keys).1 =
        (Credit.meet (rate / 1000) burst ⟨call.now, call.cost⟩ b).1 ∧
      Stands burst ((tryAcquire rate burst call keys).2 (acceptKey call.channel))
        (Credit.meet (rate / 1000) burst ⟨call.now, call.cost⟩ b).2 := by
  have hheld := held_eq_level hrate hminute h hts
  have hnonneg : 0 ≤ (Credit.meet (rate / 1000) burst ⟨call.now, call.cost⟩ b).2.tokens :=
    Credit.tokens_meet_nonneg (perMilli hrate) hburst h.nonneg
  rw [tryAcquire_eq, hheld]
  by_cases hcost : call.cost ≤ Credit.level (rate / 1000) burst b call.now
  · have hmeet : Credit.meet (rate / 1000) burst ⟨call.now, call.cost⟩ b =
        (true, ⟨Credit.level (rate / 1000) burst b call.now - call.cost, call.now⟩) :=
      if_pos hcost
    rw [hmeet] at hnonneg ⊢
    exact ⟨decide_eq_true hcost, hnonneg, .inr (by simp [hcost])⟩
  · have hmeet : Credit.meet (rate / 1000) burst ⟨call.now, call.cost⟩ b =
        (false, ⟨Credit.level (rate / 1000) burst b call.now, call.now⟩) := if_neg hcost
    rw [hmeet] at hnonneg ⊢
    exact ⟨decide_eq_false hcost, hnonneg, .inr (by simp [hcost])⟩

/-- A call on another channel does nothing to the key. -/
theorem tryAcquire_of_ne (h : call.channel ≠ channel) :
    (tryAcquire rate burst call keys).2 (acceptKey channel) = keys (acceptKey channel) := by
  rw [tryAcquire_eq]
  exact Function.update_of_ne (fun he => h (acceptKey_injective he).symm) _ _

theorem demandsOf_cons_self (h : call.channel = channel) :
    demandsOf channel (call :: calls) = ⟨call.now, call.cost⟩ :: demandsOf channel calls := by
  simp [demandsOf, h]

theorem demandsOf_cons_of_ne (h : call.channel ≠ channel) :
    demandsOf channel (call :: calls) = demandsOf channel calls := by
  simp [demandsOf, h]

/-- **The cost admitted for a channel is the cost of the demands the bucket meets.** -/
theorem grantedCost_decisions (hrate : 0 < rate) (hburst : 0 ≤ burst)
    (hminute : burst ≤ 60 * rate) {b : Bucket ℚ}
    (h : Stands burst (keys (acceptKey channel)) b) (hts : ∀ call ∈ calls, b.ts ≤ call.now)
    (hcalls : Chronological calls) : grantedCost channel (decisions rate burst calls keys).1 =
      Credit.spent (rate / 1000) burst (demandsOf channel calls) b := by
  induction calls generalizing keys b with
  | nil => rfl
  | cons call calls ih =>
      obtain ⟨hlater, hcalls⟩ := List.pairwise_cons.mp hcalls
      by_cases hc : call.channel = channel
      · subst hc
        obtain ⟨hgrant, hstands⟩ :=
          stands_tryAcquire hrate hburst hminute h (hts call List.mem_cons_self)
        have hrest := ih hstands (fun c hc => Credit.ts_meet.le.trans (hlater c hc)) hcalls
        rw [demandsOf_cons_self rfl, Credit.spent, ← hrest, ← hgrant]
        cases hg : (tryAcquire rate burst call keys).1 with
        | true => simp [decisions_cons, grantedCost, hg, Credit.charge]
        | false => simp [decisions_cons, grantedCost, hg, Credit.charge]
      · have hrest := @ih (tryAcquire rate burst call keys).2 b ((tryAcquire_of_ne hc).symm ▸ h)
          (fun c hmem => hts c (List.mem_cons_of_mem _ hmem)) hcalls
        rw [demandsOf_cons_of_ne hc, ← hrest]
        simp [decisions_cons, grantedCost, hc]

/-- After calls, the key still stands for a bucket, of a time no later than they are. -/
theorem stands_decisions (hrate : 0 < rate) (hburst : 0 ≤ burst) (hminute : burst ≤ 60 * rate)
    {b : Bucket ℚ} {stop : ℚ} (h : Stands burst (keys (acceptKey channel)) b)
    (hts : ∀ call ∈ calls, b.ts ≤ call.now) (hcalls : Chronological calls) (hstop : b.ts ≤ stop)
    (hle : ∀ call ∈ calls, call.now ≤ stop) :
    ∃ b', Stands burst ((decisions rate burst calls keys).2 (acceptKey channel)) b' ∧
      b'.ts ≤ stop := by
  induction calls generalizing keys b with
  | nil => exact ⟨b, h, hstop⟩
  | cons call calls ih =>
      obtain ⟨hlater, hcalls⟩ := List.pairwise_cons.mp hcalls
      have hle' : ∀ c ∈ calls, c.now ≤ stop := fun c hc => hle c (List.mem_cons_of_mem _ hc)
      by_cases hc : call.channel = channel
      · subst hc
        have hstands :=
          (stands_tryAcquire hrate hburst hminute h (hts call List.mem_cons_self)).2
        exact ih hstands (fun c hc => Credit.ts_meet.le.trans (hlater c hc)) hcalls
          (Credit.ts_meet.le.trans (hle call List.mem_cons_self)) hle'
      · exact @ih (tryAcquire rate burst call keys).2 b ((tryAcquire_of_ne hc).symm ▸ h)
          (fun c hmem => hts c (List.mem_cons_of_mem _ hmem)) hcalls hstop hle'

theorem decisions_append (xs ys : List AcceptCall) (keys : RateKeys) :
    decisions rate burst (xs ++ ys) keys =
      ((decisions rate burst xs keys).1 ++
        (decisions rate burst ys (decisions rate burst xs keys).2).1,
        (decisions rate burst ys (decisions rate burst xs keys).2).2) := by
  induction xs generalizing keys with
  | nil => rfl
  | cons call xs ih => simp [decisions_cons, ih]

theorem mem_decisions {o : AcceptCall × Bool} (h : o ∈ (decisions rate burst calls keys).1) :
    o.1 ∈ calls := by
  induction calls generalizing keys with
  | nil => cases h
  | cons call calls ih =>
      rcases List.mem_cons.mp h with rfl | h
      · exact List.mem_cons_self
      · exact List.mem_cons_of_mem _ (ih h)

theorem admittedCost_append (s T : ℚ) (xs ys : List (AcceptCall × Bool)) :
    admittedCost channel s T (xs ++ ys) =
      admittedCost channel s T xs + admittedCost channel s T ys := by
  simp [admittedCost]

/-- What is outside the time counts for nothing. -/
theorem admittedCost_outside {s T : ℚ} {outcomes : List (AcceptCall × Bool)}
    (h : ∀ o ∈ outcomes, ¬ (1000 * s ≤ o.1.now ∧ o.1.now ≤ 1000 * (s + T))) :
    admittedCost channel s T outcomes = 0 := by
  rw [admittedCost, List.filter_eq_nil_iff.mpr]
  · rfl
  · intro o ho hin
    rw [Bool.and_eq_true, decide_eq_true_eq] at hin
    exact h o ho hin.2.2

theorem admittedCost_inside {s T : ℚ} {outcomes : List (AcceptCall × Bool)}
    (h : ∀ o ∈ outcomes, 1000 * s ≤ o.1.now ∧ o.1.now ≤ 1000 * (s + T)) :
    admittedCost channel s T outcomes = grantedCost channel outcomes := by
  rw [admittedCost, grantedCost, List.filter_congr]
  intro o ho
  simp [h o ho]

theorem ordered_demandsOf {start stop : ℚ} (hle : start ≤ stop) (hcalls : Chronological calls)
    (h : ∀ call ∈ calls, start ≤ call.now ∧ call.now ≤ stop) :
    Credit.Ordered start stop (demandsOf channel calls) := by
  induction calls generalizing start with
  | nil => exact hle
  | cons call calls ih =>
      obtain ⟨hlater, hcalls⟩ := List.pairwise_cons.mp hcalls
      have hrest : ∀ c ∈ calls, c.now ≤ stop := fun c hc => (h c (List.mem_cons_of_mem _ hc)).2
      by_cases hc : call.channel = channel
      · rw [demandsOf_cons_self hc]
        exact ⟨(h call List.mem_cons_self).1, ih (h call List.mem_cons_self).2 hcalls
          fun c hc => ⟨hlater c hc, hrest c hc⟩⟩
      · rw [demandsOf_cons_of_ne hc]
        exact ih hle hcalls fun c hc => h c (List.mem_cons_of_mem _ hc)

/-- Behind what comes first, nothing that belongs there is left. -/
theorem of_mem_dropWhile {p : AcceptCall → Bool} (hcalls : Chronological calls)
    (hp : ∀ c c' : AcceptCall, c.now ≤ c'.now → p c' = true → p c = true) :
    ∀ c ∈ calls.dropWhile p, p c = false := by
  induction calls with
  | nil => simp
  | cons call calls ih =>
      obtain ⟨hlater, hcalls⟩ := List.pairwise_cons.mp hcalls
      cases hc : p call with
      | true => simpa [List.dropWhile_cons, hc] using ih hcalls
      | false =>
          rw [List.dropWhile_cons_of_neg (by simp [hc])]
          refine List.forall_mem_cons.mpr ⟨hc, fun c hmem => ?_⟩
          by_contra htrue
          rw [hp call c (hlater c hmem) (by simpa using htrue)] at hc
          cases hc

theorem exists_earliest (m : ℚ) (calls : List AcceptCall) :
    ∃ t ≤ m, ∀ call ∈ calls, t ≤ call.now := by
  induction calls with
  | nil => exact ⟨m, le_rfl, by simp⟩
  | cons call calls ih =>
      obtain ⟨t, htm, ht⟩ := ih
      exact ⟨min t call.now, (min_le_left _ _).trans htm, List.forall_mem_cons.mpr
        ⟨min_le_right _ _, fun c hc => (min_le_left _ _).trans (ht c hc)⟩⟩

/-- **Where a minute refills the burst, the bound holds.** -/
theorem admittedCost_le (hrate : 0 < rate) (hburst : 0 ≤ burst) (hminute : burst ≤ 60 * rate)
    (hcalls : Chronological calls) {s T : ℚ} (hT : 0 ≤ T) :
    admittedCost channel s T (decisions rate burst calls fun _ => none).1 ≤ burst + rate * T := by
  -- the calls before the time, in it, and after it
  obtain ⟨xs, rest, hxs, hx, hrest⟩ : ∃ xs rest, calls = xs ++ rest ∧
      (∀ c ∈ xs, c.now < 1000 * s) ∧ ∀ c ∈ rest, 1000 * s ≤ c.now := by
    refine ⟨calls.takeWhile fun c => decide (c.now < 1000 * s),
      calls.dropWhile fun c => decide (c.now < 1000 * s), List.takeWhile_append_dropWhile.symm,
      fun c hc => by simpa using List.mem_takeWhile_imp hc, fun c hc => ?_⟩
    have hdrop := of_mem_dropWhile hcalls
      (fun c c' hle hc' => by simpa using hle.trans_lt (of_decide_eq_true hc')) c hc
    simpa using hdrop
  subst hxs
  obtain ⟨hcx, hcrest, hcross⟩ := List.pairwise_append.mp hcalls
  obtain ⟨ys, zs, hys, hy, hz⟩ : ∃ ys zs, rest = ys ++ zs ∧
      (∀ c ∈ ys, c.now ≤ 1000 * (s + T)) ∧ ∀ c ∈ zs, 1000 * (s + T) < c.now := by
    refine ⟨rest.takeWhile fun c => decide (c.now ≤ 1000 * (s + T)),
      rest.dropWhile fun c => decide (c.now ≤ 1000 * (s + T)),
      List.takeWhile_append_dropWhile.symm,
      fun c hc => by simpa using List.mem_takeWhile_imp hc, fun c hc => ?_⟩
    have hdrop := of_mem_dropWhile hcrest
      (fun c c' hle hc' => by simpa using hle.trans (of_decide_eq_true hc')) c hc
    simpa using hdrop
  subst hys
  obtain ⟨hcy, -, -⟩ := List.pairwise_append.mp hcrest
  -- the bucket at the start of the time
  obtain ⟨t, hts, ht⟩ := exists_earliest (1000 * s) xs
  obtain ⟨b, hb, hbs⟩ := @stands_decisions rate burst (fun _ => none) xs channel hrate hburst
    hminute ⟨burst, t⟩ (1000 * s) ⟨hburst, .inl ⟨rfl, le_rfl⟩⟩ ht hcx hts fun c hc => (hx c hc).le
  have hin : ∀ c ∈ ys, 1000 * s ≤ c.now ∧ c.now ≤ 1000 * (s + T) := fun c hc =>
    ⟨hrest c (List.mem_append_left _ hc), hy c hc⟩
  have hspent : admittedCost channel s T
      (decisions rate burst ys (decisions rate burst xs fun _ => none).2).1 ≤
        burst + rate * T := by
    rw [admittedCost_inside fun o ho => hin o.1 (mem_decisions ho),
      grantedCost_decisions hrate hburst hminute hb (fun c hc => hbs.trans (hin c hc).1) hcy]
    refine (Credit.spent_le_burst (perMilli hrate) hburst hb.nonneg hbs
      (ordered_demandsOf (by linarith) hcy hin)).trans (le_of_eq ?_)
    ring
  rw [decisions_append, decisions_append, admittedCost_append, admittedCost_append,
    admittedCost_outside fun o ho hin => absurd (hx o.1 (mem_decisions ho)) (not_lt.mpr hin.1),
    admittedCost_outside fun o ho hin => absurd (hz o.1 (mem_decisions ho)) (not_lt.mpr hin.2),
    zero_add, add_zero]
  exact hspent

end Refinement

/-! ### The expiry as a refill -/

/-- The whole burst, and the whole burst again a minute later. -/
def minuteApart (channel : String) (burst : ℚ) : List AcceptCall :=
  [⟨channel, 0, burst⟩, ⟨channel, 60000, burst⟩]

theorem admittedCost_minuteApart (rate burst : ℚ) (channel : String) :
    admittedCost channel 0 60 (decisions rate burst (minuteApart channel burst) fun _ => none).1 =
      burst + burst := by
  have hgrant : ∀ keys now, RateKeys.find keys (acceptKey channel) now = none →
      tryAcquire rate burst ⟨channel, now, burst⟩ keys = (true, Function.update keys
        (acceptKey channel) (some ⟨⟨0, now⟩, now + 60000⟩)) := by
    intro keys now hnone
    have hheld : available rate burst keys channel now = burst := by
      rw [available, hnone]
    rw [tryAcquire_eq]
    simp [hheld]
  rw [minuteApart, decisions_cons, decisions_cons, hgrant _ _ rfl, hgrant]
  · simp [decisions, admittedCost]
    norm_num
  · simp [RateKeys.find]

/-- **The script keeps the bound exactly where a minute refills the burst.** -/
theorem rateBound_iff {rate burst : ℚ} (hrate : 0 < rate) (hburst : 1 ≤ burst) :
    RateBound rate burst ↔ burst ≤ 60 * rate := by
  constructor
  · intro h
    have hbound := h.bounded (minuteApart "" burst) (by simp [Chronological, minuteApart]) "" 0 60
      (by norm_num)
    rw [admittedCost_minuteApart] at hbound
    linarith
  · intro hminute
    exact {
      bounded := fun calls hcalls channel s T hT =>
        admittedCost_le hrate (zero_le_one.trans hburst) hminute hcalls hT
      refused := fun keys call h => refused_lt h }

/-- Fifty a second and a burst of two hundred keep the bound. -/
theorem rateBound_fifty : RateBound 50 200 :=
  (rateBound_iff (by norm_num) (by norm_num)).mpr (by norm_num)

/-- One a second and a burst of a hundred do not: two hundred calls pass within a minute. -/
theorem not_rateBound_one : ¬ RateBound 1 100 := by
  intro h
  have hbound := h.bounded (minuteApart "ch" 100) (by simp [Chronological, minuteApart]) "ch" 0 60
    (by norm_num)
  rw [admittedCost_minuteApart] at hbound
  norm_num at hbound

end AsyncGateway
