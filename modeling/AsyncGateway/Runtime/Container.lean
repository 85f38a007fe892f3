import AsyncGateway.Runtime.Effects

/-!
# Runtime — the container and the upstream client

The configuration a handler runs with (`Container`): the templates, the policies of the channels,
the settings, and the functions of the libraries and of the redaction that the handlers call
without looking inside.  `UpstreamClient.call` is one request to the upstream: the SSRF check, the
request, and the classification of what came of it.
-/

namespace AsyncGateway

open Interleave (Prog)

structure Container where
  /-- `registry.get`. -/
  registry : String → ℕ → Option ResolvedTemplate
  /-- What the policy of a channel overrides of a strategy. -/
  channelPolicy : String → Strategy := fun _ => {}
  channelLimits : String → ℤ × ℤ := fun _ => (100, 50)
  callbackBaseUrl : String := ""
  submitRetryMaxSeconds : ℚ := 30
  aimdQuietSeconds : ℚ := 60
  deadlineExtensionMaxSeconds : ℚ := 900
  resultPresignTtlSeconds : ℤ := 3600
  resultMaxBytes : ℕ := 536870912
  /-- Whether an object store is configured. -/
  hasResultStore : Bool := false
  ownershipCheck : Bool := true
  joinUrl : JoinUrl
  /-- `str` of a list or a dictionary. -/
  repr : Json → String := fun _ => ""
  /-- `float(raw)`, where `raw` is the text of a number. -/
  toFloat : String → Option PyFloat := fun _ => none
  /-- An HTTP date, in seconds from the epoch. -/
  parsedate : String → Option Time := fun _ => none
  scrubText : List String → String → String := fun _ s => s
  scrubPayload : List String → Json → Json := fun _ j => j
  /-- `%Y%m%d` of an instant, in UTC. -/
  utcDay : Time → String := fun _ => "19700101"
  /-- `isoformat` of an instant. -/
  isoformat : Time → String := fun _ => ""

namespace Container

variable (C : Container)

/-- `registry.require`. -/
def require (alias_ : String) (version : ℕ) : Except Exn ResolvedTemplate :=
  match C.registry alias_ version with
  | some t => .ok t
  | none => .error (.keyError alias_)

/-- `strategy_for`: the policy of the channel over the strategy of the template. -/
def strategyFor (channel : String) (t : ResolvedTemplate) : Strategy :=
  let p := C.channelPolicy channel
  { t.strategy with
    maxAttempts := p.maxAttempts <|> t.strategy.maxAttempts
    minRefreshInterval := p.minRefreshInterval <|> t.strategy.minRefreshInterval
    unknownMaxLifetimeSeconds :=
      p.unknownMaxLifetimeSeconds <|> t.strategy.unknownMaxLifetimeSeconds
    presignTtlSeconds := p.presignTtlSeconds <|> t.strategy.presignTtlSeconds
    deadlineSeconds := p.deadlineSeconds <|> t.strategy.deadlineSeconds
    idempotencyWindowSeconds :=
      p.idempotencyWindowSeconds <|> t.strategy.idempotencyWindowSeconds }

/-- `str(value)` of a JSON value. -/
def pyStr : Json → String
  | .null => "None"
  | .bool true => "True"
  | .bool false => "False"
  | .int n => toString n
  | .float text => text
  | .str s => s
  | doc => C.repr doc

/-- `result_key`: the day is the one the task was created on. -/
def resultKey (tenant taskId : String) (createdAt : Time) (attempt : ℤ) (ext : String) : String :=
  C.utcDay createdAt ++ "/" ++ tenant ++ "/" ++ taskId ++
    "/attempt-" ++ toString attempt ++ "." ++ ext

end Container

/-! ### The upstream client -/

/-- `UpstreamResponse`; `rawJsonBody` is what the upstream sent, `jsonBody` the scrubbed copy. -/
structure UpstreamResponse where
  statusCode : ℕ
  retryAfterHeader : Option String
  jsonBody : Option Json
  text : String
  rawJsonBody : Option Json

def UpstreamResponse.ok (r : UpstreamResponse) : Bool :=
  decide (200 ≤ r.statusCode ∧ r.statusCode < 300)

inductive Outcome : Type where
  | ok
  | httpError
  | transportError
  | ssrfRejected
  | timeoutUnknown
  deriving DecidableEq

structure UpstreamCallResult where
  outcome : Outcome
  response : Option UpstreamResponse := none
  classification : Option Classification := none
  error : Option String := none
  retryAfter : Option PyFloat := none

def UpstreamCallResult.ok (r : UpstreamCallResult) : Bool := decide (r.outcome = .ok)

/-- `safe_error`. -/
def UpstreamCallResult.safeError (C : Container) (r : UpstreamCallResult) : Option String :=
  r.error.map (C.scrubText [])

namespace UpstreamClient

variable (C : Container)

/-- `" ".join(value.split())`. -/
def squeeze (cs : List Char) : List Char :=
  [' '].intercalate ((cs.splitOnP Text.isSpace).filter (· ≠ []))

/-- `s.splitlines()[0]` of a text that does not start with white space. -/
def firstLine (cs : List Char) : List Char :=
  cs.takeWhile fun c =>
    !decide (c.toNat ∈ [0xa, 0xb, 0xc, 0xd, 0x1c, 0x1d, 0x1e, 0x85, 0x2028, 0x2029])

/-- `_error_detail_suffix`: the first reason the body or the text gives. -/
def errorDetailSuffix (jsonBody : Option Json) (text : String) : String :=
  let ofBody := match jsonBody with
    | some (.obj body) =>
        let ofError := match body.lookup "error" with
          | some (.obj err) => [err.lookup "message", err.lookup "msg", err.lookup "code"]
          | some (.str err) => [some (.str err)]
          | _ => []
        if body = [] then []
        else ofError ++ [body.lookup "message", body.lookup "msg", body.lookup "detail"]
    | _ => []
  let line := firstLine (Text.strip text.toList)
  let candidates := ofBody.filterMap (fun c => c.filter Json.truthy) |>.map C.pyStr
  let candidates := candidates ++ (if line = [] then [] else [String.ofList line])
  match (candidates.map fun s => Text.strip s.toList).find? (· ≠ []) with
  | some value => String.ofList (": ".toList ++ (squeeze value).take 180)
  | none => ""

/-- What the client makes of an answer: `now` is only read for a `Retry-After` date. -/
def ofResponse (secrets : List String) (context : Context) (now : Time) (r : HttpResponse) :
    UpstreamCallResult :=
  let up : UpstreamResponse :=
    { statusCode := r.statusCode, retryAfterHeader := r.retryAfter,
      jsonBody := r.json.map (C.scrubPayload secrets), text := C.scrubText secrets r.text,
      rawJsonBody := r.json }
  if up.ok then { outcome := .ok, response := some up }
  else
    { outcome := .httpError, response := some up
      classification := some (classifyStatus up.statusCode context)
      error := some ("upstream HTTP " ++ toString up.statusCode ++
        errorDetailSuffix C up.jsonBody up.text)
      retryAfter :=
        if up.statusCode = 429 then
          some (extractRetryAfter C.toFloat C.parsedate now up.retryAfterHeader (.fin 1))
        else none }

/-- What the client makes of a transport error. -/
def ofHttpxError (context : Context) (exc : HttpxError) : UpstreamCallResult :=
  let classification := classifyException exc.kind context
  { outcome := if classification.isUnknown then .timeoutUnknown else .transportError
    classification := some classification
    error := some exc.text }

/-- `UpstreamClient.call`. -/
def call (purpose : Purpose) (request : RenderedRequest) (context : Context)
    (bearer : Option String) : Handler UpstreamCallResult := do
  match ← ask (.validateTarget request.url) with
  | some violation => pure { outcome := .ssrfRejected, error := some violation }
  | none => do
      ask (.send purpose request)
      match ← ask (.recv purpose) with
      | .error exc => pure (ofHttpxError context exc)
      | .ok response => do
          let now ← now_
          pure (ofResponse C bearer.toList context now response)

end UpstreamClient

end AsyncGateway
