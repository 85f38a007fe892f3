import AsyncGateway.Domain.StateMachine
import Mathlib.Data.Rat.Defs
import Mathlib.Algebra.Order.Ring.Unbundled.Rat
import Mathlib.Data.Rat.Floor

/-!
# Domain — errors, their classification, and backoff

The exceptions the modelled code raises (`Exn`), the classification of a transport failure
(`classifyException`) and of an HTTP status (`classifyStatus`), the delay a `Retry-After` header
asks for, and `backoffSeconds`.  Seconds and instants are rationals; an instant counts seconds
from the epoch.
-/

namespace AsyncGateway

abbrev Seconds := ℚ

abbrev Time := ℚ

/-- A Python exception, by its class. -/
inductive Exn : Type where
  | transitionError (e : TransitionError)
  | expressionError (message : String)
  | renderError (message : String)
  | ssrfViolation (message : String)
  | requestDataNotFound
  | queueSaturated
  | keyError (key : String)
  | typeError
  | overflowError
  | acceptError (status : ℕ) (detail : String)
  | httpException (status : ℕ) (detail : String)
  /-- The failure of a database, a store or a queue, or any other exception of the runtime. -/
  | infrastructure (message : String)
  deriving DecidableEq

inductive ErrorClass : Type where
  | retrySafe
  | failFast
  | confirmRequired
  | rateLimited
  | channelFault
  deriving DecidableEq

inductive ErrorCode : Type where
  | upstream4xx
  | upstream5xx
  | upstreamTerminal
  | transport
  | rateLimited
  | timeout
  | cancelled
  | transferFailed
  | unknownExhausted
  | requestLost
  deriving DecidableEq

def ErrorCode.value : ErrorCode → String
  | .upstream4xx => "UPSTREAM_4XX"
  | .upstream5xx => "UPSTREAM_5XX"
  | .upstreamTerminal => "UPSTREAM_TERMINAL"
  | .transport => "TRANSPORT"
  | .rateLimited => "RATE_LIMITED"
  | .timeout => "TIMEOUT"
  | .cancelled => "CANCELLED"
  | .transferFailed => "TRANSFER_FAILED"
  | .unknownExhausted => "UNKNOWN_EXHAUSTED"
  | .requestLost => "REQUEST_LOST"

/-- What a call is made for, as the classification sees it. -/
inductive Context : Type where
  | submit
  | poll
  | cancel
  | result
  deriving DecidableEq

inductive Action : Type where
  | retry
  | backoff
  | fail
  | confirm
  | channelBreak
  deriving DecidableEq

structure Classification where
  errorClass : ErrorClass
  errorCode : ErrorCode
  retryable : Bool
  consumesAttempt : Bool
  channelFault : Bool
  action : Action
  deriving DecidableEq

/-- Whether the outcome is to be confirmed. -/
def Classification.isUnknown (c : Classification) : Bool := decide (c.action = .confirm)

/-- The classes of `httpx` errors the classification tells apart. -/
inductive HttpxKind : Type where
  | connectTimeout
  | connectError
  /-- Any other timeout. -/
  | timeoutException
  /-- `RemoteProtocolError`, `ReadError` or `WriteError`. -/
  | protocolError
  /-- Any other `HTTPError`. -/
  | httpError
  deriving DecidableEq

/-- An `httpx` error, with the text `type: message` of it. -/
structure HttpxError where
  kind : HttpxKind
  text : String
  deriving DecidableEq

def retrySafeTransport : Classification :=
  ⟨.retrySafe, .transport, true, true, false, .retry⟩

def confirmTransport : Classification :=
  ⟨.confirmRequired, .transport, false, true, false, .confirm⟩

def confirmTimeout : Classification :=
  ⟨.confirmRequired, .timeout, false, true, false, .confirm⟩

def retryWith (code : ErrorCode) (action : Action) : Classification :=
  ⟨.retrySafe, code, true, true, false, action⟩

def classifyException (exc : HttpxKind) (context : Context) : Classification :=
  match exc with
  | .connectTimeout => retrySafeTransport
  | .connectError => retrySafeTransport
  | .timeoutException =>
      if context = .poll then retryWith .timeout .backoff else confirmTimeout
  | .protocolError =>
      if context = .poll then retryWith .transport .backoff else confirmTransport
  | .httpError =>
      if context = .poll then retryWith .transport .backoff else confirmTransport

def classifyStatus (statusCode : ℕ) (context : Context) : Classification :=
  if statusCode = 429 then
    ⟨.rateLimited, .rateLimited, true, false, false, .backoff⟩
  else if statusCode = 401 ∨ statusCode = 403 then
    ⟨.channelFault, .upstream4xx, false, false, true, .channelBreak⟩
  else if statusCode = 409 then
    ⟨.confirmRequired, .upstream4xx, false, false, false, .confirm⟩
  else if statusCode = 404 ∧ context = .poll then
    ⟨.confirmRequired, .upstream4xx, false, false, false, .confirm⟩
  else if 400 ≤ statusCode ∧ statusCode < 500 then
    ⟨.failFast, .upstream4xx, false, true, false, .fail⟩
  else if 500 ≤ statusCode ∧ statusCode < 600 then
    if context = .poll then
      ⟨.retrySafe, .upstream5xx, true, false, false, .backoff⟩
    else
      ⟨.confirmRequired, .upstream5xx, false, true, false, .confirm⟩
  else
    ⟨.confirmRequired, .upstream5xx, false, false, false, .confirm⟩

/-! ### Seconds -/

/-- A Python float: `float(raw)` also gives the infinities and `nan`. -/
inductive PyFloat : Type where
  | fin (q : ℚ)
  | posInf
  | negInf
  | nan
  deriving DecidableEq

namespace PyFloat

/-- `max(0.0, x)`: `nan` is not greater than `0.0`. -/
def maxZero : PyFloat → PyFloat
  | fin q => fin (max 0 q)
  | posInf => posInf
  | negInf => fin 0
  | nan => fin 0

/-- `x or d`. -/
def orElse (x d : PyFloat) : PyFloat := if x = fin 0 then d else x

end PyFloat

/-- The integers from here on, `2 ^ 1024 - 2 ^ 970`, round to no float. -/
@[irreducible] def floatLimit : ℕ := (2 ^ 54 - 1) * 2 ^ 970

theorem le_floatLimit : 2 ^ 54 - 1 ≤ floatLimit := by
  have h : ∀ exponent, 2 ^ 54 - 1 ≤ (2 ^ 54 - 1) * 2 ^ exponent := fun exponent =>
    Nat.le_mul_of_pos_right _ (Nat.two_pow_pos exponent)
  unfold floatLimit
  exact h _

theorem floatLimit_pos : 0 < floatLimit := lt_of_lt_of_le (by decide) le_floatLimit

/-- An integer where a float is asked for. -/
def floatOfInt (n : ℤ) : Except Exn ℚ :=
  if n.natAbs < floatLimit then .ok n else .error .overflowError

theorem floatOfInt_of_le {n : ℤ} (h : n.natAbs ≤ 2 ^ 53) : floatOfInt n = .ok n :=
  if_pos ((h.trans_lt (by decide)).trans_le le_floatLimit)

theorem two_pow_lt_mul {e n : ℕ} : 2 ^ n < (2 ^ 54 - 1) * 2 ^ e ↔ n < 54 + e := by
  have hpos : 0 < 2 ^ e := Nat.two_pow_pos e
  constructor
  · intro h
    by_contra hn
    have hle : 2 ^ 54 * 2 ^ e ≤ 2 ^ n := by
      rw [← Nat.pow_add]
      exact Nat.pow_le_pow_right (by decide) (not_lt.mp hn)
    have hlt : (2 ^ 54 - 1) * 2 ^ e < 2 ^ 54 * 2 ^ e :=
      Nat.mul_lt_mul_of_pos_right (by decide) hpos
    exact absurd h (hlt.trans_le hle).le.not_gt
  · intro hn
    have hle : 2 ^ n ≤ 2 ^ 53 * 2 ^ e := by
      rw [← Nat.pow_add]
      exact Nat.pow_le_pow_right (by decide) (by omega)
    exact hle.trans_lt (Nat.mul_lt_mul_of_pos_right (by decide) hpos)

/-- A power of two is a float up to the exponent 1023. -/
theorem two_pow_lt_floatLimit {n : ℕ} : 2 ^ n < floatLimit ↔ n < 1024 := by
  unfold floatLimit
  exact two_pow_lt_mul

/-- The end of the year 9999, where `datetime` ends. -/
def datetimeEnd : Time := 253402300800

/-- `now + timedelta(seconds=delay)`. -/
def later (now : Time) : PyFloat → Except Exn Time
  | .fin q => if now + q < datetimeEnd then .ok (now + q) else .error .overflowError
  | _ => .error .overflowError

/-- The delay a `Retry-After` header asks for.  `toFloat` is `float`, `parsedate` reads an HTTP
date; where neither reads the header, the default stands. -/
def extractRetryAfter (toFloat : String → Option PyFloat) (parsedate : String → Option Time)
    (now : Time) (retryAfter : Option String) (default : PyFloat) : PyFloat :=
  match retryAfter with
  | none => default
  | some "" => default
  | some raw =>
      match toFloat raw with
      | some x => x.maxZero
      | none =>
          match parsedate raw with
          | some t => .fin (max 0 (t - now))
          | none => default

/-- The delay before the jitter, `min(cap, base * (2 ** max(0, attempt - 1)))`: the product with
an integer that is no float raises. -/
def backoffRaw (attempt : ℤ) (base cap : Seconds) : Except Exn Seconds := do
  let power ← floatOfInt (2 ^ (max 0 (attempt - 1)).toNat)
  .ok (min cap (base * power))

/-- `backoff_seconds`: exponential backoff with jitter, never above `cap`.  `random` is the value of
`random.random()`. -/
def backoffSeconds (random : ℚ) (attempt : ℤ) (base cap : Seconds) (jitter : ℚ := 1 / 5) :
    Except Exn Seconds := do
  let raw ← backoffRaw attempt base cap
  .ok (min cap (raw * (1 - jitter) + raw * jitter * 2 * random))

/-! ### The bounds of a backoff -/

section Backoff

variable {base cap jitter random : ℚ} {attempt : ℤ}

theorem floatOfInt_two_pow {n : ℕ} :
    floatOfInt (2 ^ n) = if n < 1024 then .ok (2 ^ n) else .error .overflowError := by
  have habs : ((2 : ℤ) ^ n).natAbs < floatLimit ↔ n < 1024 := by
    rw [Int.natAbs_pow]
    exact two_pow_lt_floatLimit
  unfold floatOfInt
  by_cases hn : n < 1024
  · rw [if_pos (habs.mpr hn), if_pos hn]
    norm_num
  · rw [if_neg fun h => hn (habs.mp h), if_neg hn]

/-- Up to the attempt 1024 the power of two is a float. -/
theorem backoffRaw_of_le (h : attempt ≤ 1024) :
    backoffRaw attempt base cap = .ok (min cap (base * 2 ^ (max 0 (attempt - 1)).toNat)) := by
  have hexp : (max 0 (attempt - 1)).toNat < 1024 := by omega
  rw [backoffRaw, floatOfInt_two_pow, if_pos hexp]
  rfl

/-- From there on it is none. -/
theorem backoffRaw_of_lt (h : 1024 < attempt) :
    backoffRaw attempt base cap = .error .overflowError := by
  have hexp : ¬ (max 0 (attempt - 1)).toNat < 1024 := by omega
  rw [backoffRaw, floatOfInt_two_pow, if_neg hexp]
  rfl

/-- The delay before the jitter does not decrease with the attempt. -/
theorem backoffRaw_mono (hb : 0 < base) {earlier : ℤ} (hle : earlier ≤ attempt) :
    min cap (base * 2 ^ (max 0 (earlier - 1)).toNat) ≤
      min cap (base * 2 ^ (max 0 (attempt - 1)).toNat) := by
  have hexp : (max 0 (earlier - 1)).toNat ≤ (max 0 (attempt - 1)).toNat := by omega
  have hpow : (2 : ℚ) ^ (max 0 (earlier - 1)).toNat ≤ 2 ^ (max 0 (attempt - 1)).toNat :=
    pow_le_pow_right₀ one_le_two hexp
  exact min_le_min_left cap (mul_le_mul_of_nonneg_left hpow hb.le)

/-- The jitter keeps a delay from falling below zero. -/
theorem jittered_nonneg {raw : ℚ} (hraw : 0 ≤ raw) (hj₀ : 0 ≤ jitter) (hj₁ : jitter ≤ 1)
    (hr₀ : 0 ≤ random) : 0 ≤ raw * (1 - jitter) + raw * jitter * 2 * random := by
  have hshrunk : 0 ≤ raw * (1 - jitter) := mul_nonneg hraw (sub_nonneg.mpr hj₁)
  have hdrawn : 0 ≤ raw * jitter * 2 * random :=
    mul_nonneg (mul_nonneg (mul_nonneg hraw hj₀) zero_le_two) hr₀
  exact add_nonneg hshrunk hdrawn

/-- **A backoff is a delay within its cap** that does not decrease before the jitter, exactly up to
the attempt 1024. -/
theorem backoffSeconds_bounded_iff (hb : 0 < base) (hc : 0 < cap) (hj₀ : 0 ≤ jitter)
    (hj₁ : jitter ≤ 1) (hr₀ : 0 ≤ random) :
    ((∃ delay, backoffSeconds random attempt base cap jitter = .ok delay ∧
        0 ≤ delay ∧ delay ≤ cap) ∧
      ∀ earlier ≤ attempt, ∃ before after, backoffRaw earlier base cap = .ok before ∧
        backoffRaw attempt base cap = .ok after ∧ before ≤ after) ↔ attempt ≤ 1024 := by
  constructor
  · rintro ⟨⟨delay, hdelay, -, -⟩, -⟩
    by_contra hlt
    simp [backoffSeconds, backoffRaw_of_lt (not_le.mp hlt), bind, Except.bind] at hdelay
  · intro h
    have hraw : 0 ≤ min cap (base * 2 ^ (max 0 (attempt - 1)).toNat) :=
      le_min hc.le (mul_nonneg hb.le (pow_nonneg zero_le_two _))
    constructor
    · rw [backoffSeconds, backoffRaw_of_le h]
      refine ⟨_, rfl, ?_, ?_⟩
      · exact le_min hc.le (jittered_nonneg hraw hj₀ hj₁ hr₀)
      · exact min_le_left _ _
    · intro earlier hle
      exact ⟨_, _, backoffRaw_of_le (hle.trans h), backoffRaw_of_le h, backoffRaw_mono hb hle⟩

theorem backoffSeconds_bounded_first :
    (∃ delay, backoffSeconds (1 / 2) 1 5 300 = .ok delay ∧ 0 ≤ delay ∧ delay ≤ 300) ∧
      ∀ earlier ≤ 1, ∃ before after, backoffRaw earlier 5 300 = .ok before ∧
        backoffRaw 1 5 300 = .ok after ∧ before ≤ after :=
  (backoffSeconds_bounded_iff (by norm_num) (by norm_num) (by norm_num) (by norm_num)
    (by norm_num)).mpr (by norm_num)

/-- The attempt 1025 has no delay. -/
theorem backoffSeconds_overflows :
    ¬ ∀ attempt : ℤ, ∃ delay, backoffSeconds (1 / 2) attempt 5 300 = .ok delay ∧
      0 ≤ delay ∧ delay ≤ 300 := by
  intro h
  obtain ⟨delay, hdelay, -, -⟩ := h 1025
  simp [backoffSeconds, backoffRaw_of_lt (show (1024 : ℤ) < 1025 by norm_num), bind,
    Except.bind] at hdelay

end Backoff

/-! ### What the classes mean for a create call -/

/-- The classes whose action is to confirm are the ones called so. -/
theorem isUnknown_classifyStatus {statusCode : ℕ} {context : Context} :
    (classifyStatus statusCode context).isUnknown = true ↔
      (classifyStatus statusCode context).errorClass = .confirmRequired := by
  unfold classifyStatus
  split_ifs <;> decide

theorem isUnknown_classifyException {exc : HttpxKind} {context : Context} :
    (classifyException exc context).isUnknown = true ↔
      (classifyException exc context).errorClass = .confirmRequired := by
  cases exc <;> cases context <;> decide

end AsyncGateway
